/-
CallSignature.Nesting.Survey — every character of the code, with its depth.

A SURVEY of a text lists the characters outside literals, each with its
position and depth, as far as the text is in order, and the fault that ended
the list, if any.  All questions about the structure of a text are put to its
survey:

* `scan` wants the whole text in order and fails otherwise;
* `firstVisit` looks for the first character of some sort and does not mind
  what is broken behind it;
* `closingBracket` is the end of the group the text begins with.
-/
import CallSignature.Nesting.Tracker

namespace CallSignature

/-- A character of the code: where it stands and inside how many groups. -/
structure Visit where
  offset : Nat
  char : Char
  depth : Nat
  deriving DecidableEq, Repr

namespace Visit

/-- Whether the visit is to the character `c` outside every group. -/
def isTopLevel (v : Visit) (c : Char) : Bool :=
  v.depth == 0 && v.char == c

/-- Whether the visit is to the closing bracket of an outermost group. -/
def closesGroup (v : Visit) : Bool :=
  v.depth == 0 && isCloser v.char

end Visit

/-- The characters of the code up to the first fault, and the fault. -/
structure Survey where
  visits : List Visit
  fault : Option Fault
  deriving DecidableEq, Repr

/-- The survey of the rest of a text that begins at byte `offset`, with the
groups and the literal of the tracker open. -/
def surveyFrom (tracker : Tracker) (offset : Nat) : Text → Survey
  | [] => ⟨[], tracker.unfinished?⟩
  | c :: rest =>
    match tracker.feed offset c with
    | (_, .error fault) => ⟨[], some fault⟩
    | (next, .ok .literal) => surveyFrom next (offset + c.utf8Size) rest
    | (next, .ok (.code depth)) =>
      let behind := surveyFrom next (offset + c.utf8Size) rest
      ⟨⟨offset, c, depth⟩ :: behind.visits, behind.fault⟩

/-- The survey of a whole text. -/
def survey (t : Text) : Survey :=
  surveyFrom {} 0 t

/-- The characters of the code of a text that is in order: every literal and
every group is closed, and every closing bracket matches. -/
def scan (t : Text) : Except Fault (List Visit) :=
  match survey t with
  | ⟨visits, none⟩ => .ok visits
  | ⟨_, some fault⟩ => .error fault

/-- The first character of the code for which `p` holds.  What is broken
behind it does not matter; if there is none, the text must be in order. -/
def firstVisit (p : Visit → Bool) (t : Text) : Except Fault (Option Visit) :=
  match survey t with
  | ⟨visits, fault⟩ =>
    match visits.find? p, fault with
    | some visit, _ => .ok (some visit)
    | none, none => .ok none
    | none, some fault => .error fault

/-- The position of the bracket that closes the group the text begins with. -/
def closingBracket (t : Text) : Except Fault Nat :=
  match firstVisit (fun v => decide (0 < v.offset) && v.closesGroup) t with
  | .error fault => .error fault
  | .ok (some visit) => .ok visit.offset
  | .ok none => .error (Cause.groupExpected.located 0)

end CallSignature
