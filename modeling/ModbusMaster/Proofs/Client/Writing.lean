import ModbusMaster.Client.Program
import ModbusMaster.Proofs.Client.Values
import ModbusMaster.Proofs.Device.Writing

/-!
Jobs that write values, from the text to the medium. A job whose values are not read or not
allowed fails without a call. Any other puts one request on the medium and nothing else, with the
values as they were written, and is not done without it (`Client.values_reach_wire`). What comes
back is printed; that panics when the walk over the addresses comes to the last one.
-/

namespace ModbusMaster

namespace Client

variable {device : Device} {job : Job} {operation : Operation}

/-- What is made of the result of an operation. -/
def tell (operation : Operation) : Except RequestError Value → Action (Except Failure Unit)
  | .error error => return .error (.request error)
  | .ok value => do
      printAnswer operation value
      return .ok ()

theorem work_of_error {error : ValuesError} (h : job.operation = .error error) :
    work device job = pure (.error (.values error)) := by
  rw [work, h]

theorem work_of_ok (h : job.operation = .ok operation) :
    work device job = device.perform operation >>= tell operation := by
  rw [work, h]
  congr 1

/-- Whether the cells that an operation reads are printed up to one of the last two addresses. -/
def overruns : Operation → Bool
  | .readCoils start count | .readDiscreteInputs start count | .readHoldingRegisters start count
  | .readInputRegisters start count | .readWriteRegisters start count _ _ =>
      65535 ≤ start.toNat + count.toNat
  | _ => false

theorem printCells_mute (address : UInt16) (cells : List String) :
    (printCells address cells).Does Call.Mute fun _ => True := by
  induction cells generalizing address with
  | nil => exact (Action.does_require trivial).bind fun _ _ => trivial
  | cons cell rest ih =>
    apply (Action.does_require trivial).bind
    intro _ _
    exact Action.does_perform_bind.mpr ⟨trivial, fun _ => ih (address + 1)⟩

theorem printAnswer_mute (operation : Operation) (value : Value) :
    (printAnswer operation value).Does Call.Mute fun _ => True := by
  cases value with
  | nothing => exact trivial
  | bits | registers => exact printCells_mute _ _
  | bit | byte | counter => exact Action.does_perform trivial fun _ => trivial

/-- A walk over addresses panics when it comes to the last one, be it behind the last cell. -/
theorem run_printCells (address : UInt16) (cells : List String) (site : Site) :
    (printCells address cells).run Site.answer site = ((), { site with
      panicked := site.panicked || decide (65535 ≤ address.toNat + cells.length) }) := by
  induction cells generalizing address site with
  | nil =>
    have hlast : (!decide (address.toNat < 65535)) = decide (65535 ≤ address.toNat) := by
      rw [← decide_not, decide_eq_decide, Nat.not_lt]
    rw [printCells, Action.run_bind, Site.run_require, hlast]
    rfl
  | cons cell rest ih =>
    have hwalk : (!decide (address.toNat < 65535) ||
        decide (65535 ≤ (address + 1).toNat + rest.length)) =
          decide (65535 ≤ address.toNat + (rest.length + 1)) := by
      rw [← decide_not, ← Bool.decide_or, decide_eq_decide]
      by_cases haddress : address.toNat < 65535
      · have hnext : (address + 1).toNat = address.toNat + 1 := by
          rw [UInt16.toNat_add]
          exact Nat.mod_eq_of_lt (Nat.succ_lt_succ haddress)
        omega
      · omega
    rw [printCells, Action.run_bind, Site.run_require, Action.run_bind, Site.run_print, ih,
      Bool.or_assoc, hwalk, List.length_cons]

theorem run_printCells_read {α : Type} (memory : Memory α) (text : α → String)
    (start count : UInt16) (site : Site) :
    (printCells start ((memory.read start count.toNat).map text)).run Site.answer site =
      ((), { site with
        panicked := site.panicked || decide (65535 ≤ start.toNat + count.toNat) }) := by
  rw [run_printCells, List.length_map, Memory.length_read]

/-- The answer of the equipment is printed, with a panic when it overruns. -/
theorem run_printAnswer (operation : Operation) (image : Image) (site : Site) :
    (printAnswer operation (image.answer operation)).run Site.answer site =
      ((), { site with panicked := site.panicked || overruns operation }) := by
  cases operation with
  | readCoils | readDiscreteInputs | readHoldingRegisters | readInputRegisters
  | readWriteRegisters => exact run_printCells_read _ _ _ _ _
  | _ =>
    show _ = ((), { site with panicked := site.panicked || false })
    rw [Bool.or_false]
    rfl

example : overruns (.readWriteRegisters 65533 1 0 [7]) = false ∧
    overruns (.readWriteRegisters 65534 1 0 [7]) = true := by decide

theorem tell_mute (result : Except RequestError Value) :
    (tell operation result).Does Call.Mute fun outcome =>
      outcome = .ok () → ∃ value, result = .ok value := by
  cases result with
  | error error => exact fun h => by cases h
  | ok value => exact (printAnswer_mute _ _).bind fun _ _ _ => ⟨value, rfl⟩

/-- What a job puts on the medium is what its operation puts there. -/
theorem work_runs {history : List Action.Step} {outcome : Except Failure Unit}
    (h : job.operation = .ok operation) (hruns : (work device job).Runs history outcome) :
    ∃ first result, (device.perform operation).Runs first result ∧ first <+: history ∧
      Action.puts history = Action.puts first ∧
      (outcome = .ok () → ∃ value, result = .ok value) := by
  rw [work_of_ok h] at hruns
  obtain ⟨first, second, result, rfl, hperform, htell⟩ := Action.runs_bind_iff.mp hruns
  refine ⟨first, result, hperform, List.prefix_append first second, ?_,
    ((tell_mute result).of_runs htell).2⟩
  rw [Action.puts_append, (tell_mute result).puts_eq_nil htell, List.append_nil]

/-- A job that puts one request on the medium and nothing else, and is not done without it. -/
structure Job.Writes (job : Job) (device : Device) (operation : Operation) (function : Function)
    (payload : Bytes) : Prop where
  /-- Whatever is answered, nothing but the request is put on the medium. -/
  requests : ∀ history outcome, (work device job).Runs history outcome →
    (∀ step ∈ history, step.Plausible device.engine.protocol) →
    ∀ bytes ∈ Action.puts history,
      Frame.encode device.engine.protocol device.engine.unit function.code payload = .ok bytes
  sends : ∀ history, (work device job).Runs history (.ok ()) → Action.puts history ≠ []
  /-- Equipment that is ready does what the operation asks for. What was read is printed, with a
  panic just if this overruns. -/
  reaches : ∀ site : Site, site.Ready → device.engine.unit.value = site.equipment.node →
    site.equipment.node ≠ 0 → ∃ site', (work device job).run Site.answer site = (.ok (), site') ∧
      site'.equipment = { site.equipment with image := site.equipment.image.after operation } ∧
      site'.panicked = overruns operation

theorem Job.writes_of {request : Request Value} (hjob : job.operation = .ok operation)
    (hplain : operation.Plain) (hrefusal : operation.refusal? = none)
    (hdemand : operation.demand = .ok (.exchange request)) :
    job.Writes device operation request.function request.payload where
  requests := by
    intro history outcome hruns hanswers bytes hbytes
    obtain ⟨first, result, hperform, hfirst, hputs, -⟩ := work_runs hjob hruns
    rw [hputs] at hbytes
    have hframe := Device.perform_requests hplain hperform
      (fun step hstep => hanswers step (hfirst.subset hstep)) bytes hbytes
    rw [Operation.frame, hdemand] at hframe
    exact hframe
  sends := by
    intro history hruns
    obtain ⟨first, result, hperform, -, hputs, hdone⟩ := work_runs hjob hruns
    obtain ⟨value, rfl⟩ := hdone rfl
    rw [hputs]
    exact Device.perform_sends hplain hperform
  reaches := by
    intro site hready hnode hunit
    obtain ⟨site', hrun, hequipment, hcalm, -⟩ :=
      Device.run_perform_plain hplain hrefusal hready hnode hunit
    refine ⟨{ site' with panicked := overruns operation }, ?_, hequipment, rfl⟩
    rw [work_of_ok hjob, Action.run_bind, hrun, tell, Action.run_bind, run_printAnswer, hcalm,
      Bool.false_or]
    rfl

theorem work_refused {cause : InvalidRequest} (hjob : job.operation = .ok operation)
    (hplain : operation.Plain)
    (hviolation : operation.counts.findSome? Count.violation? = some cause) :
    work device job = pure (.error (.request (.badRequest cause))) := by
  rw [work_of_ok hjob, Device.perform_refused_plain hplain
    ((Operation.refusal?_eq operation).trans hviolation)]
  rfl

/-- The jobs that write a row of registers, with the operation on their contents, its function, and
what the request carries before the count of the registers. -/
inductive Job.WritesRow (text : String) :
    Job → (List UInt16 → Operation) → Function → Bytes → Prop where
  | preset (start : UInt16) : WritesRow text (.writeRegisters start text) (.writeRegisters start)
      .writeMultipleRegisters (bigEndian start)
  | exchange (readStart readCount writeStart : UInt16) : WritesRow text
      (.readWriteRegisters readStart readCount writeStart text)
      (.readWriteRegisters readStart readCount writeStart) .readWriteMultipleRegisters
      (bigEndian readStart ++ bigEndian readCount ++ bigEndian writeStart)

namespace Job.WritesRow

variable {text : String} {carry : List UInt16 → Operation} {function : Function} {front : Bytes}

theorem operation_eq (h : job.WritesRow text carry function front) :
    job.operation = (parseContents text.toList).map carry := by
  cases h with
  | preset => rfl
  | exchange => rfl

theorem plain (h : job.WritesRow text carry function front) (contents : List UInt16) :
    (carry contents).Plain := by
  cases h with
  | preset => exact Operation.plain_of_not_reads nofun
  | exchange => exact Operation.plain_of_not_reads nofun

theorem writes {contents : List UInt16} (h : job.WritesRow text carry function front)
    (hparse : parseContents text.toList = .ok contents)
    (hrefusal : (carry contents).refusal? = none) :
    job.Writes device (carry contents) function (front ++ bigEndian (.ofNat contents.length) ++
      UInt8.ofNat (2 * contents.length) :: contents.flatMap bigEndian) := by
  have hjob : job.operation = .ok (carry contents) := by
    rw [h.operation_eq, hparse]
    rfl
  have hplain := h.plain contents
  rw [← length_flatMap_bigEndian]
  cases h with
  | preset =>
    exact Job.writes_of hjob hplain hrefusal (Operation.demand_writeRegisters hrefusal)
  | exchange readStart readCount writeStart =>
    exact Job.writes_of hjob hplain hrefusal
      (Operation.demand_readWriteRegisters_of_allowed hrefusal)

end Job.WritesRow

section Coils

variable {start : UInt16} {text : String}

theorem operation_writeCoils (h : ∀ c ∈ text.toList, IsBit c) :
    (Job.writeCoils start text).operation = .ok (.writeCoils start (statesOf text.toList)) := by
  show (parseStates text.toList).map _ = _
  rw [parseStates_of_bits h]
  rfl

theorem counts_writeCoils :
    (Operation.writeCoils start (statesOf text.toList)).counts = [⟨start, text.length, 1968⟩] := by
  rw [Operation.counts, length_statesOf, String.length_toList]

theorem work_writeCoils_of_not_bit (h : ¬ ∀ c ∈ text.toList, IsBit c) :
    ∃ before c after, text.toList = before ++ c :: after ∧ ¬ IsBit c ∧ (∀ d ∈ after, IsBit d) ∧
      work device (.writeCoils start text) = pure (.error (.values (.badState c))) := by
  obtain ⟨before, c, after, hsplit, hc, hafter⟩ := exists_last_not_bit h
  refine ⟨before, c, after, hsplit, hc, hafter, work_of_error ?_⟩
  show (parseStates text.toList).map _ = _
  rw [hsplit, parseStates_of_not_bit hc hafter]
  rfl

theorem writeCoils_writes (h : ∀ c ∈ text.toList, IsBit c)
    (hallowed : Count.Allowed ⟨start, text.length, 1968⟩) :
    (Job.writeCoils start text).Writes device (.writeCoils start (statesOf text.toList))
      .writeMultipleCoils
      (bigEndian start ++ bigEndian (.ofNat text.length) ++ UInt8.ofNat ((text.length + 7) / 8) ::
        (Nat.digitsAppend 256 ((text.length + 7) / 8) (Nat.ofDigitChars 2 text.toList 0)).map
          UInt8.ofNat) := by
  have hrefusal : (Operation.writeCoils start (statesOf text.toList)).refusal? = none := by
    rw [Operation.refusal?_eq, counts_writeCoils, Operation.findSome?_singleton]
    exact Count.violation?_eq_none_iff.mpr hallowed
  have hwrites : (Job.writeCoils start text).Writes device _ _ _ := Job.writes_of
    (operation_writeCoils h) (Operation.plain_of_not_reads nofun) hrefusal
    (Operation.demand_writeCoils hrefusal)
  have hpacked := pack_statesOf h
  have hbytes : (Bits.pack (statesOf text.toList)).length = (text.length + 7) / 8 := by
    rw [Bits.length_pack, length_statesOf, String.length_toList]
    rfl
  rw [String.length_toList] at hpacked
  rw [← hpacked, ← hbytes, ← String.length_toList, ← length_statesOf]
  exact hwrites

end Coils

/-- What is written on a command line reaches the wire as it is written. A row of zeros and ones is
a binary numeral: the bytes of its number are written, the lowest first, so that its last character
is the state of the first coil. If it is none, the last character that is neither is told. The
registers are the numerals between the commas, without the blanks around them, in their order; if
one is none that fits a register, the fault of the first is told. In these cases, and if the values
are not allowed where they are to be written, nothing at all is done. -/
theorem values_reach_wire (device : Device) :
    (∀ (start : UInt16) (text : String),
      ((¬ ∀ c ∈ text.toList, IsBit c) →
        ∃ before c after, text.toList = before ++ c :: after ∧ ¬ IsBit c ∧
          (∀ d ∈ after, IsBit d) ∧
          work device (.writeCoils start text) = pure (.error (.values (.badState c)))) ∧
      ((∀ c ∈ text.toList, IsBit c) →
        (∀ cause, Count.violation? ⟨start, text.length, 1968⟩ = some cause →
          work device (.writeCoils start text) = pure (.error (.request (.badRequest cause)))) ∧
        (Count.Allowed ⟨start, text.length, 1968⟩ →
          ∃ states : List Bool, states.length = text.length ∧
            (∀ i < text.length,
              states[i]? = some (text.toList[text.length - 1 - i]? == some '1')) ∧
            (Job.writeCoils start text).Writes device (.writeCoils start states)
              .writeMultipleCoils
              (bigEndian start ++ bigEndian (.ofNat text.length) ++
                UInt8.ofNat ((text.length + 7) / 8) ::
                  (Nat.digitsAppend 256 ((text.length + 7) / 8)
                    (Nat.ofDigitChars 2 text.toList 0)).map UInt8.ofNat)))) ∧
    ∀ (text : String) (job : Job) carry function front, job.WritesRow text carry function front →
      ((∃ operation, job.operation = .ok operation) ↔
        ∀ field ∈ text.toList.splitOn ',', ∃ n ≤ 65535,
          Numeral.Denotes (Text.trim field) n) ∧
      ((¬ ∃ operation, job.operation = .ok operation) →
        ∃ before field after fault, text.toList.splitOn ',' = before ++ field :: after ∧
          (∀ earlier ∈ before, ∃ content, Holds earlier content) ∧
          Numeral.parseWord (Text.trim field) = .error fault ∧
          work device job = pure (.error (.values (.badNumber fault)))) ∧
      ∀ contents, List.Forall₂ Holds (text.toList.splitOn ',') contents →
        (∀ cause, (carry contents).counts.findSome? Count.violation? = some cause →
          work device job = pure (.error (.request (.badRequest cause)))) ∧
        ((∀ count ∈ (carry contents).counts, count.Allowed) →
          job.Writes device (carry contents) function
            (front ++ bigEndian (.ofNat contents.length) ++
              UInt8.ofNat (2 * contents.length) :: contents.flatMap bigEndian)) := by
  refine ⟨?coils, ?registers⟩
  case coils =>
    intro start text
    refine ⟨work_writeCoils_of_not_bit, fun hbits => ⟨?_, ?_⟩⟩
    · intro cause hviolation
      apply work_refused (operation_writeCoils hbits) (Operation.plain_of_not_reads nofun)
      rw [counts_writeCoils, Operation.findSome?_singleton, hviolation]
    · intro hallowed
      refine ⟨statesOf text.toList, ?_, ?_, writeCoils_writes hbits hallowed⟩
      · rw [length_statesOf, String.length_toList]
      · intro i hi
        rw [← String.length_toList] at hi ⊢
        exact getElem?_statesOf hi
  case registers =>
    intro text job carry function front hrow
    have hparsed : (∃ operation, job.operation = .ok operation) ↔
        ∃ contents, parseContents text.toList = .ok contents := by
      rw [hrow.operation_eq]
      cases parseContents text.toList <;> simp [Except.map]
    refine ⟨hparsed.trans exists_contents_iff, ?_, ?_⟩
    · intro hfault
      obtain ⟨before, field, after, fault, hsplit, hbefore, hfield, hparse⟩ :=
        parseContents_of_fault (mt hparsed.mpr hfault)
      refine ⟨before, field, after, fault, hsplit, hbefore, hfield, work_of_error ?_⟩
      rw [hrow.operation_eq, hparse]
      rfl
    · intro contents hholds
      have hparse := parseContents_eq_ok_iff.mpr hholds
      have hjob : job.operation = .ok (carry contents) := by
        rw [hrow.operation_eq, hparse]
        rfl
      refine ⟨fun cause => work_refused hjob (hrow.plain contents), fun hallowed => ?_⟩
      apply hrow.writes hparse
      rw [Operation.refusal?_eq]
      exact Operation.counts_allowed_iff.mpr hallowed

/-- Ten coils from 19 on, and two registers with a blank and a sign between them. -/
theorem values_reach_wire_rows :
    let device : Device := { engine := ⟨⟨1⟩, .tcp, 0⟩ }
    (∃ states, (Job.writeCoils 19 "0111001101").Writes device (.writeCoils 19 states)
      .writeMultipleCoils [0, 19, 0, 10, 2, 0xCD, 1]) ∧
    (Job.writeRegisters 1 " 10,+258").Writes device (.writeRegisters 1 [10, 258])
      .writeMultipleRegisters [0, 1, 0, 2, 4, 0, 10, 1, 2] := by
  intro device
  obtain ⟨hcoils, hregisters⟩ := values_reach_wire device
  constructor
  · have hbits : ∀ c ∈ "0111001101".toList, IsBit c := by
      intro c hc
      have hall : ("0111001101".toList.all fun c => decide (IsBit c)) = true := by decide
      exact of_decide_eq_true (List.all_eq_true.mp hall c hc)
    obtain ⟨states, -, -, hwrites⟩ := ((hcoils 19 "0111001101").2 hbits).2
      ⟨by decide, by decide, by decide, by decide⟩
    exact ⟨states, hwrites⟩
  · obtain ⟨-, -, hcontents⟩ := hregisters " 10,+258" _ _ _ _ (.preset 1)
    have hholds : List.Forall₂ Holds (" 10,+258".toList.splitOn ',') [10, 258] :=
      parseContents_eq_ok_iff.mp rfl
    exact (hcontents _ hholds).2 (Operation.counts_allowed_iff.mp rfl)

end Client

end ModbusMaster
