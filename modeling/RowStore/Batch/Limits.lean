import RowStore.Fault
import RowStore.Json.Decoder

/-!
# Limits on statements

How long a statement may be, and how many bytes of rows a statement collects once a batch has to
be split.
-/

namespace RowStore.Batch

open Json (Decoder)

structure Limits where
  /-- Bytes of a whole statement. -/
  packet : Nat
  /-- Bytes of rows in one of several statements. -/
  threshold : Nat
  deriving DecidableEq

namespace Limits

/-- The packet size that a server starts with, and a threshold well below it. -/
def standard : Limits := ⟨1048576, 800000⟩

/-- Neither limit is zero, and the threshold is within the packet. -/
def Valid (l : Limits) : Prop := 0 < l.threshold ∧ l.threshold ≤ l.packet

instance (l : Limits) : Decidable l.Valid := inferInstanceAs (Decidable (_ ∧ _))

def check (l : Limits) : Except Fault Unit :=
  if l.packet = 0 ∨ l.threshold = 0 then .error (.misconfigured .zeroLimit)
  else if l.packet < l.threshold then
    .error (.misconfigured (.thresholdAbovePacket l.threshold l.packet))
  else .ok ()

theorem check_eq_ok_iff (l : Limits) : l.check = .ok () ↔ l.Valid := by
  unfold check Valid
  constructor
  · intro h
    split at h
    · simp at h
    · split at h
      · simp at h
      · omega
  · intro h
    rw [if_neg (by omega), if_neg (by omega)]

/-- An object with the members `maxPacketSize` and `splitThreshold`, neither of them needed. -/
def decoder : Decoder Limits :=
  Json.Decoder.record "PlannerConfig"
    [.defaulted "maxPacketSize" Json.Decoder.size fun n l => { l with packet := n },
      .defaulted "splitThreshold" Json.Decoder.size fun n l => { l with threshold := n }]
    standard

end Limits

end RowStore.Batch
