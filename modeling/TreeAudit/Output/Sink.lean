import TreeAudit.Output.Format

/-!
Sinks: where the entries of a report go. A sink is given entries one by one and
is closed after the last of them. It may fail at any call, or crash while it is
given an entry.
-/

set_option autoImplicit false
set_option relaxedAutoImplicit false

namespace TreeAudit.Output

open Report

/-- How giving an entry to a sink ended. -/
inductive Written where
  | done
  | failed
  | crashed
deriving DecidableEq

/-- A sink over states `σ`. Closing tells whether it went well. -/
structure Sink (σ : Type) where
  name : σ → String
  write : Entry → σ → σ × Written
  close : σ → σ × Bool

/-- A sink that keeps the entries it was given. -/
structure Collector where
  entries : Array Entry
  closed : Bool

namespace Collector

def empty : Collector := ⟨#[], false⟩

def sink : Sink Collector where
  name := fun _ ↦ "memory"
  write := fun entry collector ↦
    ({ collector with entries := collector.entries.push entry }, .done)
  close := fun collector ↦ ({ collector with closed := true }, true)

end Collector

/-- The console, with the text it has shown. -/
structure Console where
  shown : String

namespace Console

def blank : Console := ⟨""⟩

def sink : Sink Console where
  name := fun _ ↦ "console"
  write := fun entry console ↦ (⟨console.shown ++ Format.text.line entry⟩, .done)
  close := fun console ↦ (console, true)

end Console

/-- A report file that is being written. What is written is held back until the
file is closed, so that a device with no room is noticed only then. A real file is
buffered: it is written to whenever the buffer is full, so a long report may meet a
full device earlier, and part of a report may be there before it is closed. Which
entry meets it hangs on the size of the buffer and is left out. -/
structure ReportFile where
  format : Format
  hasRoom : Bool
  held : String

namespace ReportFile

def create (format : Format) (hasRoom : Bool) : ReportFile :=
  ⟨format, hasRoom, format.opening⟩

/-- No entry fails; whether there was room for the whole report shows when it is closed. -/
def sink : Sink ReportFile where
  name := fun file ↦ file.format.label
  write := fun entry file ↦ ({ file with held := file.held ++ file.format.line entry }, .done)
  close := fun file ↦ (file, file.hasRoom || file.held.isEmpty)

end ReportFile

end TreeAudit.Output
