import Descent.Diagnostic
import Descent.Kind

/-!
# Marker logs

A parse does not build its tree at once. It opens markers at token positions and later commits
them as nodes, drops them or rolls them back, and a log records what was opened and committed in
which order. Three facts make backtracking cheap and exact:

* dropping a marker leaves its entries in the log and notes the stage it was at;
* rolling back to a marker undoes the log entry by entry, the latest first, and so gives back
  every marker that was dropped in between;
* a marker can be put in front of another one afterwards, so that it will wrap it.
-/

namespace Descent

/-- A handle for a node that is or may be under construction. -/
structure Marker where
  number : Nat
  deriving DecidableEq, Repr, Inhabited

/-- The marker as traces show it. -/
def Marker.debug (m : Marker) : String := "Marker(" ++ toString m.number ++ ")"

/-- How far a marker has come. -/
inductive MarkerStage where
  | opened
  | committed
  | dropped
  | rolledBack
  deriving DecidableEq, Repr

namespace MarkerStage

/-- The stage as traces show it. -/
def debug : MarkerStage → String
  | opened => "Open"
  | committed => "Done"
  | dropped => "Dropped"
  | rolledBack => "RolledBack"

end MarkerStage

/-- What is known of a marker: the token positions it reaches from and to, and the node it was
committed as. -/
structure MarkerInfo where
  start : Nat
  stop : Nat
  kind : Option Kind := none
  error : Option SyntaxError := none
  stage : MarkerStage := .opened
  deriving DecidableEq, Repr

/-- An entry of a marker log. -/
inductive Entry where
  | start (m : Marker)
  | commit (m : Marker)
  /-- The marker was dropped while it was at stage `prior`. -/
  | drop (m : Marker) (prior : MarkerStage)
  deriving DecidableEq, Repr

/-- The markers of a session and what happened to them, the latest first. -/
structure MarkerLog where
  markers : Array MarkerInfo := #[]
  entries : List Entry := []
  deriving DecidableEq, Repr

/-- Puts a marker at a stage. -/
def setStage (ms : Array MarkerInfo) (m : Marker) (stage : MarkerStage) : Array MarkerInfo :=
  ms.modify m.number fun info => { info with stage }

namespace Entry

/-- Takes an entry back. What it opened or committed is rolled back, what it dropped is as it
was. -/
def undo (ms : Array MarkerInfo) : Entry → Array MarkerInfo
  | start m => setStage ms m .rolledBack
  | commit m => setStage ms m .rolledBack
  | drop m prior => setStage ms m prior

end Entry

namespace MarkerLog

instance : Inhabited MarkerLog := ⟨{}⟩

/-- What is known of a marker. -/
def info? (log : MarkerLog) (m : Marker) : Option MarkerInfo := log.markers[m.number]?

def stage? (log : MarkerLog) (m : Marker) : Option MarkerStage := (log.info? m).map (·.stage)

def isCommitted (log : MarkerLog) (m : Marker) : Bool := log.stage? m == some .committed

/-- The kind of a committed marker. -/
def kind? (log : MarkerLog) (m : Marker) : Option Kind :=
  (log.info? m).bind fun info => if info.stage = .committed then info.kind else none

def error? (log : MarkerLog) (m : Marker) : Option SyntaxError := (log.info? m).bind (·.error)

/-- The position at which a marker starts. -/
def start (log : MarkerLog) (m : Marker) : Nat := ((log.info? m).map (·.start)).getD 0

/-- The position at which a marker ends. -/
def stop (log : MarkerLog) (m : Marker) : Nat := ((log.info? m).map (·.stop)).getD 0

/-- Whether the marker has a start entry. -/
def isStarted (log : MarkerLog) (m : Marker) : Bool := log.entries.contains (.start m)

/-- The marker that will be allocated next. -/
def fresh (log : MarkerLog) : Marker := ⟨log.markers.size⟩

/-- Opens a marker at a position. -/
def openAt (log : MarkerLog) (position : Nat) : Marker × MarkerLog :=
  (log.fresh,
    { markers := log.markers.push { start := position, stop := position }
      entries := .start log.fresh :: log.entries })

/-- Commits an open marker as a node that ends at a position. Other markers stay as they are. -/
def commit (log : MarkerLog) (m : Marker) (kind : Kind) (error : Option SyntaxError)
    (position : Nat) : MarkerLog :=
  if log.stage? m = some .opened then
    { markers := log.markers.modify m.number fun info =>
        { info with stop := max position info.start, kind := some kind, error, stage := .committed }
      entries := .commit m :: log.entries }
  else log

/-- Forgets an open or committed marker. Whatever is inside it stays. -/
def drop (log : MarkerLog) (m : Marker) : MarkerLog :=
  match log.stage? m with
  | some .opened => ⟨setStage log.markers m .dropped, .drop m .opened :: log.entries⟩
  | some .committed => ⟨setStage log.markers m .dropped, .drop m .committed :: log.entries⟩
  | _ => log

/-- Takes entries back, the latest first, up to and with the start of a marker. -/
def unwind (m : Marker) (ms : Array MarkerInfo) : List Entry → MarkerLog
  | [] => ⟨ms, []⟩
  | e :: rest => if e = .start m then ⟨e.undo ms, rest⟩ else unwind m (e.undo ms) rest

/-- Erases a marker and everything recorded after it. The answer has the position the marker was
opened at; there is none if the marker is already gone. -/
def rollback (log : MarkerLog) (m : Marker) : Option (Nat × MarkerLog) :=
  match log.info? m with
  | none => none
  | some info =>
    if log.isStarted m then some (info.start, unwind m log.markers log.entries) else none

/-- Puts a start entry right before that of a marker, or behind all entries if it has none. -/
def insertStart (m new : Marker) (entries : List Entry) : List Entry :=
  go entries |>.getD (.start new :: entries)
where
  go : List Entry → Option (List Entry)
    | [] => none
    | e :: rest => if e = .start m then some (e :: .start new :: rest) else (go rest).map (e :: ·)

/-- Opens a marker that starts where another one starts and will wrap it. -/
def wrap (log : MarkerLog) (m : Marker) : Marker × MarkerLog :=
  (log.fresh,
    { markers := log.markers.push { start := log.start m, stop := log.start m }
      entries := insertStart m log.fresh log.entries })

/-- The marker committed last. -/
def lastCommitted? (log : MarkerLog) : Option Marker :=
  log.entries.findSome? fun
    | .commit m => if log.isCommitted m then some m else none
    | _ => none

/-- Whether an entry belongs to a marker that is still open or committed. -/
def counts (log : MarkerLog) : Entry → Bool
  | .start m => log.stage? m == some .opened || log.stage? m == some .committed
  | .commit m => log.isCommitted m
  | .drop .. => false

/-- The marker committed last, if nothing that still counts was opened after it. Such a node can
be widened up to the current position without crossing another one. -/
def lastWidenable? (log : MarkerLog) : Option Marker :=
  match log.entries.find? log.counts with
  | some (.commit m) => some m
  | _ => none

end MarkerLog

end Descent
