import RobotRoutine.Failure.Basic

/-!
The display at a console.

Items stay on the display until it is cleared, and each refresh writes all of them, a line for each.
A line goes to the outlet in pieces; a piece that the outlet rejects ends the refresh.
-/

namespace RobotRoutine

/-- Where a display writes to.  A piece of text is taken or rejected, and what is still held back
can be asked for. -/
class Outlet (σ : Type) where
  write : σ → String → Except Failure Unit × σ
  flush : σ → Except Failure Unit × σ

namespace Outlet

variable {σ : Type} [Outlet σ]

/-- Hands pieces of text over until one is rejected. -/
def writeAll (outlet : σ) : List String → Except Failure Unit × σ
  | [] => (.ok (), outlet)
  | text :: rest =>
      match write outlet text with
      | (.ok _, outlet) => writeAll outlet rest
      | (.error failure, outlet) => (.error failure, outlet)

end Outlet

/-- An outlet in memory. -/
structure Sink where
  /-- What has been written, the last piece first. -/
  pieces : List String
  /-- The number of bytes that there is room for; without one, any number. -/
  room : Option Nat
  /-- True of a sink that cannot be flushed. -/
  jammed : Bool

namespace Sink

def unlimited : Sink := ⟨[], none, false⟩

def written (sink : Sink) : String := String.join sink.pieces.reverse

def write (sink : Sink) (text : String) : Except Failure Unit × Sink :=
  match sink.room with
  | none => (.ok (), { sink with pieces := text :: sink.pieces })
  | some room =>
      if text.utf8ByteSize ≤ room then
        (.ok (), { sink with
          pieces := text :: sink.pieces
          room := some (room - text.utf8ByteSize) })
      else (.error (.plain "sink full"), sink)

def flush (sink : Sink) : Except Failure Unit :=
  if sink.jammed then .error (.plain "sink jammed") else .ok ()

instance : Outlet Sink where
  write := write
  flush sink := (sink.flush, sink)

end Sink

/-- A call to a display. -/
inductive DisplayCall where
  | addItem (caption value : String)
  | refresh
  | clearItems
  | flushDisplay
  deriving DecidableEq, Repr

/-- The items on a display, in the order in which they were added. -/
structure ConsoleDisplay where
  items : List (String × String)
  deriving DecidableEq, Repr

namespace ConsoleDisplay

variable {σ : Type} [Outlet σ]

def empty : ConsoleDisplay := ⟨[]⟩

def add (display : ConsoleDisplay) (caption value : String) : ConsoleDisplay :=
  ⟨display.items ++ [(caption, value)]⟩

def linePieces (caption value : String) : List String := [caption, ": ", value, "\n"]

def writeItems (outlet : σ) : List (String × String) → Except Failure Unit × σ
  | [] => (.ok (), outlet)
  | (caption, value) :: rest =>
      match Outlet.writeAll outlet (linePieces caption value) with
      | (.ok _, outlet) => writeItems outlet rest
      | (.error failure, outlet) => (.error (.context "write telemetry" failure), outlet)

def refresh (display : ConsoleDisplay) (outlet : σ) : Except Failure Unit × σ :=
  writeItems outlet display.items

def flushed (result : Except Failure Unit) : Except Failure Unit :=
  result.mapError fun failure => .context "flush telemetry" failure

def flush (sink : Sink) : Except Failure Unit := flushed sink.flush

/-- Answers a call to a display in front of any outlet. -/
def answer (display : ConsoleDisplay) (outlet : σ) :
    DisplayCall → Except Failure Unit × ConsoleDisplay × σ
  | .addItem caption value => (.ok (), display.add caption value, outlet)
  | .refresh =>
      let (result, outlet) := display.refresh outlet
      (result, display, outlet)
  | .clearItems => (.ok (), empty, outlet)
  | .flushDisplay =>
      let (result, outlet) := Outlet.flush outlet
      (flushed result, display, outlet)

end ConsoleDisplay

end RobotRoutine
