/-!
Contract: observers of concepts and what they are shown.

Owns:
- the two kinds of observers: recordings, which keep the texts they are shown,
  and journals, which write them to one common log;
- the notices that a concept gives to its observer;
- the displays of all observers, and how a notice changes them.

Does not own: when a concept gives a notice. A concept only knows who observes
it; whether the observer is showing is known to the display alone, so a notice
to refresh may come to nothing.
-/

namespace AttentiveReasoner.Knowledge

/-- Somebody who observes a concept. -/
inductive Observer where
  /-- The recording of a name. One recording may observe several concepts. -/
  | recording (name : String)
  /-- A writer of the common log. -/
  | journal (number : Nat)
deriving DecidableEq, Repr

/-- What a concept tells an observer. -/
inductive Notice where
  /-- A live display of a concept begins, with a first text. -/
  | start (observer : Observer) (concept text : String)
  /-- A text is to be shown. -/
  | post (observer : Observer) (text : String)
  /-- The text has changed; it is to be shown if the observer is showing. -/
  | refresh (observer : Observer) (text : String)
  /-- The live display ends. -/
  | stop (observer : Observer)
  /-- The concept has dropped the observer. -/
  | detach (observer : Observer)
deriving DecidableEq, Repr

/-- What one observer has been shown. -/
structure Display where
  /-- The concept observed last. -/
  concept : String := ""
  /-- The texts of a recording, in the order they were shown. -/
  shown : List String := []
  showing : Bool := false
  detached : Bool := false
  /-- How many live displays have begun. -/
  started : Nat := 0
deriving DecidableEq, Repr

/-- The displays of the observers that were given a notice, and the common log of
concepts and messages. -/
structure Displays where
  displays : List (Observer × Display) := []
  log : List (String × String) := []
deriving DecidableEq, Repr

namespace Displays

/-- The display of an observer. -/
def of (displays : Displays) (observer : Observer) : Display :=
  (displays.displays.lookup observer).getD {}

/-- The displays with that of one observer changed. -/
def update
    (displays : Displays)
    (observer : Observer)
    (change : Display → Display) :
    Displays :=
  { displays with
    displays :=
      (observer, change (displays.of observer)) ::
        displays.displays.filter (·.1 ≠ observer) }

/-- Append a message about the concept that an observer observes to the log, if
the observer is a journal. -/
def write (displays : Displays) (observer : Observer) (message : String) : Displays :=
  match observer with
  | .recording _ => displays
  | .journal _ =>
      { displays with
        log := displays.log ++ [((displays.of observer).concept, message)] }

/-- Show a text: a recording keeps it, a journal writes it on a line of its
own. -/
def post (displays : Displays) (observer : Observer) (text : String) : Displays :=
  (displays.update observer (fun display =>
    { display with
      showing := true
      shown :=
        match observer with
        | .recording _ => display.shown ++ [text]
        | .journal _ => display.shown })).write observer ("\n" ++ text)

/-- The displays after a notice. -/
def receive (displays : Displays) : Notice → Displays
  | .start observer concept text =>
      (displays.update observer (fun display =>
        { display with
          concept := concept
          started := display.started + 1 })).post observer text
  | .post observer text => displays.post observer text
  | .refresh observer text =>
      if (displays.of observer).showing then displays.post observer text
      else displays
  | .stop observer =>
      displays.update observer (fun display => { display with showing := false })
  | .detach observer =>
      (displays.update observer (fun display =>
        { display with
          showing := false
          detached := true })).write observer "Observador desanexado"

/-- The displays after a list of notices. -/
def receiveAll (displays : Displays) (notices : List Notice) : Displays :=
  notices.foldl receive displays

/-- The displays with an empty log. -/
def clearLog (displays : Displays) : Displays :=
  { displays with log := [] }

end Displays

end AttentiveReasoner.Knowledge
