/-!
Output sinks: bytes in the order in which they were written, with an optional capacity.

A text that does not fit is stored as far as it fits, and the write fails.
-/

namespace TagTemplate

inductive WriteError where
  | sinkFull
  deriving DecidableEq, Repr

def WriteError.message : WriteError → String
  | sinkFull => "failed to write whole buffer"

structure Sink where
  capacity : Option Nat
  bytes : ByteArray

namespace Sink

def unbounded : Sink := ⟨none, .empty⟩

def bounded (capacity : Nat) : Sink := ⟨some capacity, .empty⟩

def write (sink : Sink) (text : String) : Except WriteError Unit × Sink :=
  match sink with
  | ⟨none, bytes⟩ => (.ok (), ⟨none, bytes ++ text.toUTF8⟩)
  | ⟨some capacity, bytes⟩ =>
      let room := capacity - bytes.size
      let data := text.toUTF8
      if data.size ≤ room then (.ok (), ⟨some capacity, bytes ++ data⟩)
      else (.error .sinkFull, ⟨some capacity, bytes ++ data.extract 0 room⟩)

end Sink

end TagTemplate
