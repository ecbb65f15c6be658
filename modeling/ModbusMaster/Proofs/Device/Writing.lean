import ModbusMaster.Proofs.Device.Repetition
import ModbusMaster.Proofs.Engine.Sending
import ModbusMaster.Proofs.Equipment.Simulation

/-!
Writes on a device. No cache answers them, so a device does what its engine does: a write that is
not allowed is refused without a call, and one that is allowed puts its frame on the medium and
nothing else. What the values of a write make of its request is said here too.
-/

namespace ModbusMaster

namespace Operation

open Request

variable {operation : Operation} {start : UInt16}

/-- What is no read is answered by no cache. -/
theorem plain_of_not_reads (h : ∀ function start count, ¬ operation.Reads function start count) :
    operation.Plain :=
  (Device.reads_or_plain operation).resolve_left fun hreads => by
    obtain ⟨function, start, count, hreads⟩ := hreads
    exact h function start count hreads

/-- Values that are allowed fill their range and are carried whole. -/
theorem request_of_allowed {α : Type} {limit : UInt16} {values : Nat} {bytes : Bytes}
    (build : AddressRange → Bytes → Request α)
    (hallowed : valuesRefusal? limit start values = none)
    (hbytes : values ≤ limit.toNat → bytes.length ≤ 255) :
    (rangeOfValues limit start values >>= fun range =>
      countable bytes >>= fun bytes => .ok (build range bytes)) =
      .ok (build ⟨start, UInt16.ofNat values⟩ bytes) := by
  obtain ⟨hfits, hcount⟩ := fits_of_valuesRefusal? hallowed
  have hle : values ≤ limit.toNat := hcount ▸ hfits.count_le
  rw [rangeOfValues_eq, hallowed, countable_eq_ok (hbytes hle)]
  rfl

/-- What an operation that writes so many values demands. -/
theorem demand_of_allowed {α : Type} {limit : UInt16} {values : Nat} {bytes : Bytes} {f : α → Value}
    {build : AddressRange → Bytes → Request α}
    (hdemand : operation.demand = (fun r => Demand.exchange (r.map f)) <$>
      (rangeOfValues limit start values >>= fun range =>
        countable bytes >>= fun bytes => .ok (build range bytes)))
    (hallowed : valuesRefusal? limit start values = none)
    (hbytes : values ≤ limit.toNat → bytes.length ≤ 255) :
    operation.demand =
      .ok (.exchange ((build ⟨start, UInt16.ofNat values⟩ bytes).map f)) := by
  rw [hdemand, request_of_allowed build hallowed hbytes]
  rfl

theorem demand_writeCoils {states : List Bool} (h : (writeCoils start states).refusal? = none) :
    (writeCoils start states).demand = .ok (.exchange
      ((writeBlock .writeMultipleCoils ⟨start, UInt16.ofNat states.length⟩
        (Bits.pack states)).map fun _ => .nothing)) :=
  demand_of_allowed rfl h length_pack_le

theorem demand_writeRegisters {contents : List UInt16}
    (h : (writeRegisters start contents).refusal? = none) :
    (writeRegisters start contents).demand = .ok (.exchange
      ((writeBlock .writeMultipleRegisters ⟨start, UInt16.ofNat contents.length⟩
        (contents.flatMap bigEndian)).map fun _ => .nothing)) :=
  demand_of_allowed rfl h length_contents_le

theorem demand_readWriteRegisters_of_allowed {readStart readCount : UInt16} {contents : List UInt16}
    (h : (readWriteRegisters readStart readCount start contents).refusal? = none) :
    (readWriteRegisters readStart readCount start contents).demand = .ok (.exchange
      ((readWrite ⟨readStart, readCount⟩ ⟨start, UInt16.ofNat contents.length⟩
        (contents.flatMap bigEndian)).map .registers)) := by
  obtain ⟨hread, hwritten⟩ := Option.or_eq_none_iff.mp h
  have hrange := rangeFor_eq 120 readStart readCount
  rw [hread] at hrange
  have hrequest := request_of_allowed (readWrite ⟨readStart, readCount⟩) hwritten
    length_contents_le
  show _ <$> (rangeFor 120 readStart readCount >>= fun read => _) = _
  rw [hrange]
  show _ <$> (rangeOfValues 120 start contents.length >>= fun written => _) = _
  rw [hrequest]
  rfl

end Operation

/-- An attempt that succeeds is the only one. -/
theorem RetryPolicy.run_attempts {α σ : Type} {answer : (call : Call) → σ → call.Answer × σ}
    {attempt : Action (Except RequestError α)} {state state' : σ} {value : α}
    (h : attempt.run answer state = (.ok value, state')) (pause : Duration) (left : Nat) :
    (attempts pause attempt left).run answer state = (.ok value, state') := by
  cases left with
  | zero => exact h
  | succ left =>
    rw [attempts_succ, Action.run_bind, h]
    rfl

namespace Device

variable {device : Device} {operation : Operation} {history : List Action.Step}

theorem perform_plain (hplain : operation.Plain) :
    device.perform operation = perform ⟨device.engine, none, device.retry⟩ operation := by
  rw [perform, perform, hplain, hplain]

theorem perform_refused_plain {cause : InvalidRequest} (hplain : operation.Plain)
    (h : operation.refusal? = some cause) :
    device.perform operation = pure (.error (.badRequest cause)) := by
  rw [perform_plain hplain, perform_refused h]

/-- Nothing but the frame of an operation is put on the medium. -/
theorem perform_requests {protocol : Protocol} {result : Except RequestError Value}
    (hplain : operation.Plain) (hruns : (device.perform operation).Runs history result)
    (hanswers : ∀ step ∈ history, step.Plausible protocol) :
    ∀ bytes ∈ Action.puts history, operation.frame protocol device.engine.unit = .ok bytes := by
  rw [perform_plain hplain] at hruns
  exact (perform_repeats (fun manager h => by cases h) hruns hanswers).requests

theorem perform_sends {value : Value} (hplain : operation.Plain)
    (hruns : (device.perform operation).Runs history (.ok value)) : Action.puts history ≠ [] := by
  rw [perform, hplain] at hruns
  exact Action.puts_ne_nil
    (RetryPolicy.attempts_unsent (Engine.perform_unsent operation) _ _) hruns

theorem run_perform_plain {site : Site} (hplain : operation.Plain)
    (hrefusal : operation.refusal? = none) (hready : site.Ready)
    (hnode : device.engine.unit.value = site.equipment.node) (hunit : site.equipment.node ≠ 0) :
    ∃ site', (device.perform operation).run Site.answer site =
        (.ok (site.equipment.image.answer operation), site') ∧
      site'.equipment =
        { site.equipment with image := site.equipment.image.after operation } ∧
      site'.Ready := by
  obtain ⟨site', hrun, hequipment, hafter⟩ := Engine.run_perform operation hready hnode hunit
  rw [Image.perform, hrefusal] at hrun hequipment
  refine ⟨site', ?_, hequipment, hafter⟩
  rw [perform, hplain]
  exact RetryPolicy.run_attempts hrun _ _

end Device

end ModbusMaster
