import Descent.Fatal
import Descent.Frame
import Descent.Limits

/-!
# Traces

A session notes what it does as a list of events. Each has a level of importance and a line of
text with the values it is about.
-/

namespace Descent

/-- Something worth noting. -/
inductive Event where
  | settingIgnored (setting : Limits.IgnoredSetting)
  | parseStarted (tokens : Nat)
  | parseFinished (diagnostics : Nat) (fatal : Bool)
  | aborted (error : Fatal)
  | sectionEntered (frame : Frame)
  | sectionLeft (frame : Frame) (result pinned : Bool)
  | childKept (child : Marker)
  | reportOutsideSection
  | errorReported (position : Nat) (error : SyntaxError) (advance inner : Bool)
  | skipped (position lastError : Nat) (eatMore : Bool)
  | chunksFinished (total : Nat)
  | chunkFolded (generation : Nat)
  | hookRegistered (level : Nat)
  | wrapUnstarted (marker : Marker)
  | commitNotOpen (marker : Marker) (stage : MarkerStage)
  deriving DecidableEq, Repr

namespace Event

/-- The line of an event: its level, what happened, and values by name. -/
def display : Event → String
  | settingIgnored s =>
    "WARN ignoring invalid " ++ Limits.recursionVariable ++ " value=" ++ s.text ++
      " err=" ++ s.error.message
  | parseStarted tokens => "DEBUG span parse tokens=" ++ toString tokens
  | parseFinished diagnostics fatal =>
    "DEBUG parse finished diagnostics=" ++ toString diagnostics ++ " fatal=" ++ toString fatal
  | aborted error =>
    "ERROR fatal parse error code=" ++ error.code.text ++ " error=" ++ error.display
  | sectionEntered frame => "TRACE enter section frame=" ++ frame.display
  | sectionLeft frame result pinned =>
    "TRACE exit section frame=" ++ frame.display ++ " result=" ++ toString result ++
      " pinned=" ++ toString pinned
  | childKept child => "TRACE collapse child=" ++ child.debug
  | reportOutsideSection => "DEBUG error report outside of any section"
  | errorReported position error advance inner =>
    "DEBUG syntax error position=" ++ toString position ++ " code=" ++ error.code.text ++
      " message=" ++ error.message ++ " advance=" ++ toString advance ++
      " inner=" ++ toString inner
  | skipped position lastError eatMore =>
    "DEBUG recovery skip skipped_to=" ++ toString position ++
      " last_error=" ++ toString lastError ++ " eat_more_flag=" ++ toString eatMore
  | chunksFinished total => "DEBUG parse_as_tree finished total=" ++ toString total
  | chunkFolded generation => "DEBUG folded chunk generation=" ++ toString generation
  | hookRegistered level => "TRACE register hook level=" ++ toString level
  | wrapUnstarted marker =>
    "WARN precede on a marker with no start event marker=" ++ marker.debug
  | commitNotOpen marker stage =>
    "WARN commit of a marker that is not open marker=" ++ marker.debug ++ " state=" ++ stage.debug

end Event

end Descent
