import ModbusMaster.Proofs.Cache.Cells
import ModbusMaster.Proofs.Engine.Attribution
import ModbusMaster.Proofs.Engine.Status

/-!
Which replies are accepted. An exchange that succeeds gives as many bytes as were asked for, so of
the checks that follow only those remain that compare the reply with the request: the function,
the byte count of a read, and what a write is answered by. `Operation.verdict` says what comes of
the data behind the function, byte by byte.
-/

namespace ModbusMaster

/-- Word `i` of a byte string; zero beyond its end. -/
def wordOf (bytes : Bytes) (i : Nat) : UInt16 :=
  word (bytes.getD (2 * i) 0) (bytes.getD (2 * i + 1) 0)

theorem wordsOf_eq_map {bytes : Bytes} {count : Nat} (h : bytes.length = 2 * count) :
    wordsOf bytes = (List.range count).map (wordOf bytes) := by
  induction count generalizing bytes with
  | zero =>
    rw [List.eq_nil_of_length_eq_zero h]
    rfl
  | succ count ih =>
    obtain ⟨high, low, rest, rfl⟩ : ∃ high low rest, bytes = high :: low :: rest := by
      match bytes, h with
      | high :: low :: rest, _ => exact ⟨high, low, rest, rfl⟩
    have hrest : rest.length = 2 * count := by
      simp only [List.length_cons] at h
      omega
    rw [wordsOf, ih hrest, List.range_succ_eq_map, List.map_cons, List.map_map]
    rfl

/-- The two bytes of a word are those that it is written as. -/
theorem word_eq_iff {high low : UInt8} {w : UInt16} :
    word high low = w ↔ [high, low] = bigEndian w := by
  constructor
  · rintro rfl
    have hhigh := high.toNat_lt
    have hlow := low.toNat_lt
    rw [bigEndian, toNat_word]
    congr 1
    · exact UInt8.toNat_inj.mp (by rw [UInt8.toNat_ofNat']; omega)
    · congr 1
      exact UInt8.toNat_inj.mp (by rw [UInt8.toNat_ofNat']; omega)
  · intro h
    simp only [bigEndian, List.cons.injEq, and_true] at h
    rw [h.1, h.2, word_bigEndian]

namespace Request

variable {α : Type} {function : Function} {range : AddressRange} {data : Bytes}

/-- The byte count of a reply that is as long as it has to be. -/
theorem countedBytes_eq {expected : Nat} (h : data.length = expected + 1) :
    countedBytes data expected =
      if (data.getD 0 0).toNat = expected then .ok (data.drop 1)
      else .error (.byteCountMismatch (data.getD 0 0).toNat expected) := by
  obtain ⟨count, bytes, rfl⟩ := List.exists_cons_of_length_eq_add_one h
  obtain rfl : bytes.length = expected := Nat.succ.inj h
  simp [countedBytes]

theorem bits_answer (h : data.length + 1 = (bits function range).replyLength) :
    (bits function range).answer data =
      if (data.getD 0 0).toNat = Bits.byteCount range.count.toNat then
        .ok ((List.range range.count.toNat).map (Bits.stateAt (data.drop 1)))
      else
        .error (.byteCountMismatch (data.getD 0 0).toNat
          (Bits.byteCount range.count.toNat)) := by
  have hlength : data.length = Bits.byteCount range.count.toNat + 1 := by
    simp only [bits] at h
    omega
  have hpacked : (data.drop 1).length = Bits.byteCount range.count.toNat := by
    rw [List.length_drop]
    omega
  -- so many bytes hold all the states, so nothing is wrong when they are unpacked
  have hstates : Bits.unpack? (data.drop 1) range.count.toNat =
      some ((List.range range.count.toNat).map (Bits.stateAt (data.drop 1))) := by
    rw [Bits.unpack?, if_neg (by omega)]
  simp only [bits, countedBytes_eq hlength]
  split
  · simp only [bind, Except.bind, hstates]
  · rfl

theorem words_answer {count : Nat} (h : data.length = 2 * count + 1) :
    wordsOf <$> countedBytes data (2 * count) =
      if (data.getD 0 0).toNat = 2 * count then
        .ok ((List.range count).map (wordOf (data.drop 1)))
      else .error (.byteCountMismatch (data.getD 0 0).toNat (2 * count)) := by
  have hwords : (data.drop 1).length = 2 * count := by
    rw [List.length_drop]
    omega
  rw [countedBytes_eq h]
  split
  · exact congrArg Except.ok (wordsOf_eq_map hwords)
  · rfl

/-! ### Echoes -/

theorem wordAt_eq {i : Nat} (h : 2 * i + 2 ≤ data.length) :
    wordAt data (2 * i) = .ok (wordOf data i) := by
  have hhigh : 2 * i < data.length := by omega
  have hlow : 2 * i + 1 < data.length := by omega
  rw [wordAt, List.drop_eq_getElem_cons hhigh, List.drop_eq_getElem_cons hlow, wordOf,
    List.getD_eq_getElem _ _ hhigh, List.getD_eq_getElem _ _ hlow]

theorem eq_bigEndian_append_iff {w : UInt16} {rest : Bytes} (h : 2 ≤ data.length) :
    data = bigEndian w ++ rest ↔ wordOf data 0 = w ∧ data.drop 2 = rest := by
  match data, h with
  | high :: low :: tail, _ =>
    show high :: low :: tail = _ :: _ :: rest ↔ word high low = w ∧ tail = rest
    rw [word_eq_iff, bigEndian]
    simp only [List.cons.injEq, and_true, and_assoc]

theorem wordOf_drop (i : Nat) : wordOf (data.drop 2) i = wordOf data (i + 1) := by
  have hhigh : 2 + 2 * i = 2 * (i + 1) := by omega
  have hlow : 2 + (2 * i + 1) = 2 * (i + 1) + 1 := by omega
  simp only [wordOf, List.getD_eq_getElem?_getD, List.getElem?_drop, hhigh, hlow]

theorem eq_bigEndian_iff {w : UInt16} (h : data.length = 2) :
    data = bigEndian w ↔ wordOf data 0 = w := by
  have hrest : data.drop 2 = [] := List.drop_eq_nil_of_le (Nat.le_of_eq h)
  rw [← List.append_nil (bigEndian w), eq_bigEndian_append_iff (Nat.le_of_eq h.symm), hrest]
  exact and_iff_left rfl

theorem eq_two_words_iff {first second : UInt16} (h : data.length = 4) :
    data = bigEndian first ++ bigEndian second ↔
      (wordOf data 0, wordOf data 1) = (first, second) := by
  rw [eq_bigEndian_append_iff (by omega), eq_bigEndian_iff (by rw [List.length_drop]; omega),
    wordOf_drop, Prod.mk.injEq]

theorem eq_three_words_iff {first second third : UInt16} (h : data.length = 6) :
    data = bigEndian first ++ bigEndian second ++ bigEndian third ↔
      (wordOf data 0, wordOf data 1, wordOf data 2) = (first, second, third) := by
  rw [List.append_assoc, eq_bigEndian_append_iff (by omega),
    eq_two_words_iff (by rw [List.length_drop]; omega), wordOf_drop, wordOf_drop]
  simp only [Prod.mk.injEq]

/-- What comes of a reply that has to repeat some bytes. -/
def repeated (data bytes : Bytes) : Except ReplyError Unit :=
  if data = bytes then .ok () else .error .replyEchoMismatch

theorem writeRegister_answer {address content : UInt16} (h : data.length = 4) :
    (writeRegister address content).answer data =
      repeated data (bigEndian address ++ bigEndian content) := by
  have hfirst : wordAt data 0 = .ok (wordOf data 0) := wordAt_eq (i := 0) (by omega)
  have hsecond : wordAt data 2 = .ok (wordOf data 1) := wordAt_eq (i := 1) (by omega)
  simp only [writeRegister, hfirst, hsecond, bind, Except.bind, echoed, repeated,
    eq_two_words_iff h]

theorem maskWrite_answer {address andMask orMask : UInt16} (h : data.length = 6) :
    (maskWrite address andMask orMask).answer data =
      repeated data (bigEndian address ++ bigEndian andMask ++ bigEndian orMask) := by
  have hfirst : wordAt data 0 = .ok (wordOf data 0) := wordAt_eq (i := 0) (by omega)
  have hsecond : wordAt data 2 = .ok (wordOf data 1) := wordAt_eq (i := 1) (by omega)
  have hthird : wordAt data 4 = .ok (wordOf data 2) := wordAt_eq (i := 2) (by omega)
  simp only [maskWrite, hfirst, hsecond, hthird, bind, Except.bind, echoed, repeated,
    eq_three_words_iff h]

theorem writeBlock_repeated {bytes : Bytes} (h : data.length = 4) :
    (writeBlock function range bytes).answer data = repeated data range.encode := by
  have hfirst : wordAt data 0 = .ok (wordOf data 0) := wordAt_eq (i := 0) (by omega)
  have hsecond : wordAt data 2 = .ok (wordOf data 1) := wordAt_eq (i := 1) (by omega)
  have hrange : data = range.encode ↔
      (⟨wordOf data 0, wordOf data 1⟩ : AddressRange) = range := by
    obtain ⟨start, count⟩ := range
    rw [AddressRange.encode, eq_two_words_iff h, Prod.mk.injEq, AddressRange.mk.injEq]
  simp only [writeBlock, hfirst, hsecond, bind, Except.bind, echoed, repeated, hrange]

/-- The word of a coil is looked at before the address. -/
theorem writeCoil_answer {address : UInt16} {state : Bool} (h : data.length = 4) :
    (writeCoil address state).answer data =
      if wordOf data 1 = 0xFF00 ∨ wordOf data 1 = 0 then
        repeated data (bigEndian address ++ bigEndian (coilWord state))
      else .error (.unknownCoilState (wordOf data 1)) := by
  have hfirst : wordAt data 0 = .ok (wordOf data 0) := wordAt_eq (i := 0) (by omega)
  have hsecond : wordAt data 2 = .ok (wordOf data 1) := wordAt_eq (i := 1) (by omega)
  simp only [writeCoil, hfirst, hsecond, bind, Except.bind, repeated, eq_two_words_iff h]
  by_cases hon : wordOf data 1 = 0xFF00
  · rw [hon]
    cases state <;> simp [coilState, coilWord, echoed]
  by_cases hoff : wordOf data 1 = 0
  · rw [hoff]
    cases state <;> simp [coilState, coilWord, echoed]
  · rw [if_neg (not_or.mpr ⟨hon, hoff⟩), coilState, if_neg hon, if_neg hoff]

end Request

namespace Operation

variable {operation : Operation} {request : Request Value} {data : Bytes}

/-- How many bytes of cells a reply to a read has to announce. -/
def byteCount? : Operation → Option Nat
  | readCoil _ => some 1
  | readCoils _ count | readDiscreteInputs _ count => some ((count.toNat + 7) / 8)
  | readHoldingRegisters _ count | readInputRegisters _ count
  | readWriteRegisters _ count _ _ => some (2 * count.toNat)
  | _ => none

/-- What the cells behind the byte count of a reply are read as. -/
def cellsValue : Operation → Bytes → Value
  | readCoil _, cells => .bit (Bits.stateAt cells 0)
  | readCoils _ count, cells | readDiscreteInputs _ count, cells =>
      .bits ((List.range count.toNat).map (Bits.stateAt cells))
  | readHoldingRegisters _ count, cells | readInputRegisters _ count, cells
  | readWriteRegisters _ count _ _, cells =>
      .registers ((List.range count.toNat).map (wordOf cells))
  | _, _ => .nothing

/-- What the reply to a write has to repeat. -/
def echo? : Operation → Option Bytes
  | writeCoil address state => some (bigEndian address ++ [if state then 0xFF else 0, 0])
  | writeRegister address content => some (bigEndian address ++ bigEndian content)
  | maskWriteRegister address andMask orMask =>
      some (bigEndian address ++ bigEndian andMask ++ bigEndian orMask)
  | writeCoils start states =>
      some (bigEndian start ++ bigEndian (UInt16.ofNat states.length))
  | writeRegisters start contents =>
      some (bigEndian start ++ bigEndian (UInt16.ofNat contents.length))
  | _ => none

/-- The word in the reply to a write of a coil, if it stands for no state. -/
def strangeState? : Operation → Bytes → Option UInt16
  | writeCoil _ _, data =>
      if wordOf data 1 = 0xFF00 ∨ wordOf data 1 = 0 then none else some (wordOf data 1)
  | _, _ => none

/-- What the data are read as that are neither cells nor an echo. -/
def statusValue : Operation → Bytes → Value
  | readExceptionStatus, data => .byte (data.getD 0 0)
  | fetchEventCounter, data => .counter ⟨wordOf data 0, wordOf data 1⟩
  | _, _ => .nothing

/-- What comes of the data behind the function of a reply. -/
def verdict (operation : Operation) (data : Bytes) : Except ReplyError Value :=
  match operation.byteCount?, operation.echo? with
  | some count, _ =>
      if (data.getD 0 0).toNat = count then .ok (operation.cellsValue (data.drop 1))
      else .error (.byteCountMismatch (data.getD 0 0).toNat count)
  | none, some bytes =>
      match operation.strangeState? data with
      | some state => .error (.unknownCoilState state)
      | none => if data = bytes then .ok .nothing else .error .replyEchoMismatch
  | none, none => .ok (operation.statusValue data)

/-- The operations that write a single cell; their reply repeats the request. -/
def WritesCell : Operation → Prop
  | writeCoil .. | writeRegister .. | maskWriteRegister .. => True
  | _ => False

theorem echo?_eq_payload (hdemand : operation.demand = .ok (.exchange request))
    (hcell : operation.WritesCell) : operation.echo? = some request.payload := by
  cases operation with
  | writeCoil address state =>
    cases hdemand
    cases state <;> rfl
  | writeRegister | maskWriteRegister =>
    cases hdemand
    rfl
  | _ => exact hcell.elim

theorem rangeOfValues_eq_ok {limit start : UInt16} {values : Nat} {range : AddressRange}
    (h : Request.rangeOfValues limit start values = .ok range) :
    range = ⟨start, UInt16.ofNat values⟩ := by
  rw [rangeOfValues_eq] at h
  split at h
  next => cases h
  next =>
    cases h
    rfl

/-! ### The requests that operations demand -/

section Demands

variable {α : Type} {f : α → Value} {limit start : UInt16}

theorem demand_of_range {build : AddressRange → Request α} {count : UInt16}
    (hdemand : (fun r => Demand.exchange (r.map f)) <$>
      (build <$> Request.rangeFor limit start count) = .ok (.exchange request)) :
    request = (build ⟨start, count⟩).map f := by
  obtain ⟨inner, hinner, hrequest⟩ := Results.map_eq_ok_iff.mp hdemand
  obtain ⟨range, hrange, rfl⟩ := Results.map_eq_ok_iff.mp hinner
  obtain ⟨rfl, -⟩ := Request.rangeFor_eq_ok hrange
  exact (Demand.exchange.inj hrequest).symm

theorem request_of_values {build : AddressRange → Bytes → Request α} {values : Nat}
    {bytes : Bytes} {request : Request α}
    (h : (Request.rangeOfValues limit start values >>= fun range =>
      Request.countable bytes >>= fun bytes => .ok (build range bytes)) = .ok request) :
    request = build ⟨start, UInt16.ofNat values⟩ bytes := by
  cases hrange : Request.rangeOfValues limit start values with
  | error cause =>
    rw [hrange] at h
    cases h
  | ok range =>
    obtain rfl := rangeOfValues_eq_ok hrange
    rw [hrange, Request.countable] at h
    by_cases hlong : 255 < bytes.length
    · rw [if_pos hlong] at h
      cases h
    · rw [if_neg hlong] at h
      cases h
      rfl

theorem demand_of_values {build : AddressRange → Bytes → Request α} {values : Nat} {bytes : Bytes}
    (hdemand : (fun r => Demand.exchange (r.map f)) <$>
      (Request.rangeOfValues limit start values >>= fun range =>
        Request.countable bytes >>= fun bytes => .ok (build range bytes)) =
        .ok (.exchange request)) :
    request = (build ⟨start, UInt16.ofNat values⟩ bytes).map f := by
  obtain ⟨inner, hinner, hrequest⟩ := Results.map_eq_ok_iff.mp hdemand
  rw [← request_of_values hinner]
  exact (Demand.exchange.inj hrequest).symm

/-- One coil is asked for as a range of one coil. -/
theorem demand_readCoil {address : UInt16}
    (hdemand : (readCoil address).demand = .ok (.exchange request)) :
    request = { Request.bits .readCoils ⟨address, 1⟩ with answer := fun data =>
      ((Request.bits .readCoils ⟨address, 1⟩).answer data >>= firstState).map .bit } := by
  obtain ⟨inner, hinner, hrequest⟩ := Results.map_eq_ok_iff.mp hdemand
  obtain rfl := Demand.exchange.inj hrequest
  rw [Request.readCoil, Request.readCoils] at hinner
  cases hrange : Request.rangeFor AddressRange.maxReadBits address 1 with
  | error cause =>
    rw [hrange] at hinner
    cases hinner
  | ok range =>
    obtain ⟨rfl, -⟩ := Request.rangeFor_eq_ok hrange
    rw [hrange] at hinner
    cases hinner
    rfl

theorem demand_readWriteRegisters {readStart readCount writeStart : UInt16}
    {contents : List UInt16}
    (hdemand : (readWriteRegisters readStart readCount writeStart contents).demand =
      .ok (.exchange request)) :
    request = (Request.readWrite ⟨readStart, readCount⟩
      ⟨writeStart, UInt16.ofNat contents.length⟩ (contents.flatMap bigEndian)).map .registers := by
  obtain ⟨inner, hinner, hrequest⟩ := Results.map_eq_ok_iff.mp hdemand
  obtain rfl := Demand.exchange.inj hrequest
  rw [Request.readWriteRegisters] at hinner
  cases hread : Request.rangeFor AddressRange.maxReadRegisters readStart readCount with
  | error cause =>
    rw [hread] at hinner
    cases hinner
  | ok read =>
    obtain ⟨rfl, -⟩ := Request.rangeFor_eq_ok hread
    rw [hread] at hinner
    rw [← request_of_values hinner]

end Demands

/-! ### Verdicts -/

theorem verdict_of_byteCount? {count : Nat} (hcount : operation.byteCount? = some count) :
    operation.verdict data =
      if (data.getD 0 0).toNat = count then .ok (operation.cellsValue (data.drop 1))
      else .error (.byteCountMismatch (data.getD 0 0).toNat count) := by
  rw [verdict, hcount]

/-- A read answers with the cells if they are announced, and with nothing else. -/
theorem read_verdict {α : Type} {f : α → Value} {cells : α} {count : Nat}
    {answer : Except ReplyError α} (hcount : operation.byteCount? = some count)
    (hanswer : answer = if (data.getD 0 0).toNat = count then .ok cells
      else .error (.byteCountMismatch (data.getD 0 0).toNat count))
    (hvalue : f cells = operation.cellsValue (data.drop 1)) :
    answer.map f = operation.verdict data := by
  rw [verdict_of_byteCount? hcount, hanswer, ← hvalue]
  split <;> rfl

/-- A write that is answered by its echo, which stands for no state of a coil. -/
theorem write_verdict {bytes : Bytes} {answer : Except ReplyError Unit}
    (hcount : operation.byteCount? = none) (hecho : operation.echo? = some bytes)
    (hstate : operation.strangeState? data = none)
    (hanswer : answer = Request.repeated data bytes) :
    answer.map (fun _ => Value.nothing) = operation.verdict data := by
  simp only [verdict, hcount, hecho, hstate, hanswer, Request.repeated]
  split <;> rfl

theorem writeCoil_verdict {address : UInt16} {state : Bool} (hlength : data.length = 4) :
    ((Request.writeCoil address state).answer data).map (fun _ => Value.nothing) =
      (writeCoil address state).verdict data := by
  have hecho : bigEndian (Request.coilWord state) = [if state then 0xFF else 0, 0] := by
    cases state <;> rfl
  rw [Request.writeCoil_answer hlength, hecho]
  by_cases hstate : wordOf data 1 = 0xFF00 ∨ wordOf data 1 = 0
  · rw [if_pos hstate]
    exact write_verdict rfl rfl (if_pos hstate) rfl
  · rw [if_neg hstate, verdict]
    simp only [byteCount?, echo?, strangeState?, if_neg hstate]
    rfl

/-- The only state of a range of one coil. -/
theorem readCoil_verdict {address : UInt16}
    (hlength : data.length + 1 = (Request.bits .readCoils ⟨address, 1⟩).replyLength) :
    ((Request.bits .readCoils ⟨address, 1⟩).answer data >>= firstState).map .bit =
      (readCoil address).verdict data := by
  have hcount : Bits.byteCount (UInt16.toNat 1) = 1 := by decide
  rw [Request.bits_answer hlength, verdict_of_byteCount? rfl, hcount]
  split <;> rfl

/-- A reply as long as it has to be is judged by what it says alone. -/
theorem answer_eq_verdict (hdemand : operation.demand = .ok (.exchange request))
    (hlength : data.length + 1 = request.replyLength) :
    request.answer data = operation.verdict data := by
  cases operation with
  | readCoil address =>
    obtain rfl := demand_readCoil hdemand
    exact readCoil_verdict hlength
  | readCoils start count | readDiscreteInputs start count =>
    obtain rfl := demand_of_range hdemand
    exact read_verdict rfl (Request.bits_answer hlength) rfl
  | readHoldingRegisters start count | readInputRegisters start count =>
    obtain rfl := demand_of_range hdemand
    have hdata : data.length = 2 * count.toNat + 1 := by
      simp only [Request.map, Request.registers] at hlength
      omega
    exact read_verdict rfl (Request.words_answer hdata) rfl
  | readWriteRegisters readStart readCount writeStart contents =>
    obtain rfl := demand_readWriteRegisters hdemand
    have hdata : data.length = 2 * readCount.toNat + 1 := by
      simp only [Request.map, Request.readWrite] at hlength
      omega
    exact read_verdict rfl (Request.words_answer hdata) rfl
  | writeCoil address state =>
    cases hdemand
    exact writeCoil_verdict (Nat.succ.inj hlength)
  | writeRegister address content =>
    cases hdemand
    exact write_verdict rfl rfl rfl (Request.writeRegister_answer (Nat.succ.inj hlength))
  | maskWriteRegister address andMask orMask =>
    cases hdemand
    exact write_verdict rfl rfl rfl (Request.maskWrite_answer (Nat.succ.inj hlength))
  | writeCoils start states =>
    obtain rfl := demand_of_values hdemand
    exact write_verdict rfl rfl rfl (Request.writeBlock_repeated (Nat.succ.inj hlength))
  | writeRegisters start contents =>
    obtain rfl := demand_of_values hdemand
    exact write_verdict rfl rfl rfl (Request.writeBlock_repeated (Nat.succ.inj hlength))
  | broadcastRegister => cases hdemand
  | readExceptionStatus =>
    cases hdemand
    obtain ⟨status, rfl⟩ := List.length_eq_one_iff.mp (Nat.succ.inj hlength)
    rfl
  | fetchEventCounter =>
    cases hdemand
    have hdata : data.length = 4 := Nat.succ.inj hlength
    have hstatus : Request.wordAt data 0 = .ok (wordOf data 0) :=
      Request.wordAt_eq (i := 0) (by omega)
    have hcount : Request.wordAt data 2 = .ok (wordOf data 1) :=
      Request.wordAt_eq (i := 1) (by omega)
    show (Request.eventCounter.answer data).map Value.counter = _
    simp only [Request.eventCounter, hstatus, hcount, bind, Except.bind]
    rfl

/-- What a reply that is not accepted can be found wrong with. -/
def Surfaces (operation : Operation) (request : Request Value) : ReplyError → Prop
  | .unexpectedFunction echo function => function = request.function.code ∧ echo ≠ function
  | .byteCountMismatch actual expected =>
      operation.byteCount? = some expected ∧ actual ≠ expected
  | .replyEchoMismatch => operation.echo? ≠ none
  | .unknownCoilState state =>
      (∃ address written, operation = .writeCoil address written) ∧ state ≠ 0xFF00 ∧ state ≠ 0

theorem strangeState?_eq_some {state : UInt16} (h : operation.strangeState? data = some state) :
    (∃ address written, operation = .writeCoil address written) ∧ state ≠ 0xFF00 ∧ state ≠ 0 := by
  cases operation with
  | writeCoil address written =>
    rw [strangeState?] at h
    split at h
    next => cases h
    next hstate =>
      cases h
      exact ⟨⟨address, written, rfl⟩, not_or.mp hstate⟩
  | _ => cases h

theorem surfaces_of_verdict {cause : ReplyError} (h : operation.verdict data = .error cause) :
    operation.Surfaces request cause := by
  unfold verdict at h
  split at h
  next count _ hcount =>
    split at h
    next => cases h
    next hne =>
      cases h
      exact ⟨hcount, hne⟩
  next bytes _ hecho =>
    split at h
    next state hstate =>
      cases h
      exact strangeState?_eq_some hstate
    next =>
      split at h
      next => cases h
      next =>
        cases h
        show operation.echo? ≠ none
        rw [hecho]
        exact nofun
  next => cases h

/-- What is to be repeated is no read. -/
theorem byteCount?_of_echo? {bytes : Bytes} (hecho : operation.echo? = some bytes) :
    operation.byteCount? = none := by
  cases operation with
  | writeCoil | writeRegister | maskWriteRegister | writeCoils | writeRegisters => rfl
  | _ => cases hecho

/-- What is written to a coil stands for a state. -/
theorem strangeState?_of_echo? (hecho : operation.echo? = some data) :
    operation.strangeState? data = none := by
  cases operation with
  | writeCoil address state =>
    cases hecho
    refine if_pos ?_
    cases state
    · exact .inr rfl
    · exact .inl rfl
  | _ => rfl

/-- A write is accepted if and only if it is repeated. -/
theorem verdict_eq_ok_iff_echo {bytes : Bytes} (hecho : operation.echo? = some bytes) :
    (∃ value, operation.verdict data = .ok value) ↔ data = bytes := by
  have hcount := byteCount?_of_echo? hecho
  simp only [verdict, hcount, hecho]
  constructor
  · rintro ⟨value, hvalue⟩
    split at hvalue
    next => cases hvalue
    next =>
      split at hvalue
      next hdata => exact hdata
      next => cases hvalue
  · rintro rfl
    rw [strangeState?_of_echo? hecho]
    exact ⟨.nothing, if_pos rfl⟩

/-- A read is accepted if and only if it announces its cells. -/
theorem verdict_eq_ok_iff_cells {count : Nat} {value : Value}
    (hcount : operation.byteCount? = some count) :
    operation.verdict data = .ok value ↔
      (data.getD 0 0).toNat = count ∧ value = operation.cellsValue (data.drop 1) := by
  rw [verdict_of_byteCount? hcount]
  split
  next h => rw [Except.ok.injEq, eq_comm, and_iff_right h]
  next h => exact ⟨nofun, fun hok => absurd hok.1 h⟩

theorem answerOf_eq (hdemand : operation.demand = .ok (.exchange request)) {echo : UInt8}
    (hlength : data.length + 1 = request.replyLength) :
    request.answerOf (echo :: data) =
      if echo = request.function.code then operation.verdict data
      else .error (.unexpectedFunction echo request.function.code) := by
  rw [Request.answerOf, answer_eq_verdict hdemand hlength]

/-- A reply with as many bytes as it has to have starts with a function. -/
theorem exists_data (hdemand : operation.demand = .ok (.exchange request)) {pdu : Bytes}
    (hlength : pdu.length = request.replyLength) :
    ∃ echo data, pdu = echo :: data ∧ data.length + 1 = request.replyLength := by
  obtain ⟨hleast, -⟩ := replyLength_bounds hdemand
  obtain ⟨echo, data, rfl⟩ := List.exists_cons_of_length_pos (show 0 < pdu.length by omega)
  exact ⟨echo, data, rfl, hlength⟩

end Operation

namespace Engine

variable {α : Type} {engine : Engine} {operation : Operation} {request : Request Value}
  {history : List Action.Step}

theorem execute_eq_map (engine : Engine) (request : Request α) :
    engine.execute request =
      (·.bind fun reply => (request.answerOf reply).mapError .badResponse) <$>
        engine.exchange request.function.code request.payload request.replyLength := by
  rw [execute, ← bind_pure_comp]
  congr 1
  funext outcome
  cases outcome <;> rfl

/-- What an exchange gives has the length that was asked for, and an exchange finds nothing wrong
with what it answers. -/
theorem exchange_gives {function : UInt8} {payload : Bytes} {length : Nat}
    {outcome : Except RequestError Bytes}
    (hruns : (engine.exchange function payload length).Runs history outcome) :
    (∀ pdu, outcome = .ok pdu → pdu.length = length) ∧ Answering outcome := by
  obtain ⟨transport, rest, -, hrest⟩ := Action.runs_perform_bind_iff.mp hruns
  obtain ⟨first, second, ⟨result, kept⟩, rfl, hfirst, hsecond⟩ := Action.runs_bind_iff.mp hrest
  obtain ⟨-, rest, -, hdone⟩ := Action.runs_perform_bind_iff.mp hsecond
  obtain ⟨-, rfl⟩ := Action.runs_pure_iff.mp hdone
  have houtcome := Transport.exchange_outcome.of_heard hfirst
  refine ⟨?_, houtcome.answering⟩
  rintro pdu rfl
  generalize hresult : (Except.ok pdu : Except RequestError Bytes) = result at houtcome
  cases houtcome with
  | refused cause => cases hresult
  | failed => cases hresult
  | decoded => exact (Frame.decode_eq_ok hresult.symm).2

theorem perform_runs_iff (hdemand : operation.demand = .ok (.exchange request))
    {result : Except RequestError Value} :
    (engine.perform operation).Runs history result ↔
      ∃ outcome, (engine.exchange request.function.code request.payload
          request.replyLength).Runs history outcome ∧
        result = outcome.bind fun pdu => (request.answerOf pdu).mapError .badResponse := by
  rw [perform, hdemand]
  show (engine.execute request).Runs history result ↔ _
  rw [execute_eq_map, Action.runs_map_iff]

theorem surfaces_of_runs (hdemand : operation.demand = .ok (.exchange request))
    {cause : ReplyError}
    (hruns : (engine.perform operation).Runs history (.error (.badResponse cause))) :
    operation.Surfaces request cause := by
  obtain ⟨outcome, hexchange, hresult⟩ := (perform_runs_iff hdemand).mp hruns
  obtain ⟨hlength, hanswering⟩ := exchange_gives hexchange
  cases outcome with
  | error error =>
    cases hresult
    exact absurd rfl (hanswering cause)
  | ok pdu =>
    obtain ⟨echo, data, rfl, hdata⟩ := Operation.exists_data hdemand (hlength pdu rfl)
    have hanswer : request.answerOf (echo :: data) = .error cause := by
      replace hresult : _ = (request.answerOf (echo :: data)).mapError RequestError.badResponse :=
        hresult
      cases h : request.answerOf (echo :: data) with
      | ok value =>
        rw [h] at hresult
        cases hresult
      | error found =>
        rw [h] at hresult
        cases hresult
        rfl
    rw [Operation.answerOf_eq hdemand hdata] at hanswer
    split at hanswer
    next => exact Operation.surfaces_of_verdict hanswer
    next hecho =>
      cases hanswer
      exact ⟨rfl, hecho⟩

/-- A reply is accepted exactly when it matches the request. The exchange gives as many bytes as
were asked for. If these do not start with the function of the request, that is what is wrong.
Otherwise a write is accepted if and only if its reply repeats what it has to, which for a single
cell is the whole request; and a read if and only if the byte count is that of the cells, as which
the data are read then. Nothing else is found wrong with a reply than what does not match. -/
theorem perform_accepts_matching (engine : Engine)
    (hdemand : operation.demand = .ok (.exchange request)) :
    (∀ history result, (engine.perform operation).Runs history result ↔
      ∃ outcome, (engine.exchange request.function.code request.payload
          request.replyLength).Runs history outcome ∧
        (∀ pdu, outcome = .ok pdu → pdu.length = request.replyLength) ∧
        result = outcome.bind fun pdu => (request.answerOf pdu).mapError .badResponse) ∧
    (∀ echo data, data.length + 1 = request.replyLength →
      request.answerOf (echo :: data) =
        if echo = request.function.code then operation.verdict data
        else .error (.unexpectedFunction echo request.function.code)) ∧
    (∀ bytes, operation.echo? = some bytes → ∀ pdu, pdu.length = request.replyLength →
      ((∃ value, request.answerOf pdu = .ok value) ↔ pdu = request.function.code :: bytes)) ∧
    (operation.WritesCell → operation.echo? = some request.payload) ∧
    (∀ count, operation.byteCount? = some count → ∀ pdu, pdu.length = request.replyLength →
      ∀ value, request.answerOf pdu = .ok value ↔
        pdu.getD 0 0 = request.function.code ∧ (pdu.getD 1 0).toNat = count ∧
          value = operation.cellsValue (pdu.drop 2)) ∧
    ∀ history cause, (engine.perform operation).Runs history (.error (.badResponse cause)) →
      operation.Surfaces request cause := by
  refine ⟨?runs, ?judged, ?writes, Operation.echo?_eq_payload hdemand, ?reads, ?surfaces⟩
  case runs =>
    intro history result
    rw [perform_runs_iff hdemand]
    refine exists_congr fun outcome => and_congr_right fun hexchange => ?_
    rw [and_iff_right (exchange_gives hexchange).1]
  case judged => exact fun echo data hlength => Operation.answerOf_eq hdemand hlength
  case writes =>
    intro bytes hecho pdu hlength
    obtain ⟨echo, data, rfl, hdata⟩ := Operation.exists_data hdemand hlength
    rw [Operation.answerOf_eq hdemand hdata, List.cons.injEq,
      ← Operation.verdict_eq_ok_iff_echo hecho]
    split
    next h => rw [and_iff_right h]
    next h => exact ⟨nofun, fun heq => absurd heq.1 h⟩
  case reads =>
    intro count hcount pdu hlength value
    obtain ⟨echo, data, rfl, hdata⟩ := Operation.exists_data hdemand hlength
    show _ ↔ echo = request.function.code ∧ (data.getD 0 0).toNat = count ∧
      value = operation.cellsValue (data.drop 1)
    rw [Operation.answerOf_eq hdemand hdata, ← Operation.verdict_eq_ok_iff_cells hcount]
    split
    next h => rw [and_iff_right h]
    next h => exact ⟨nofun, fun heq => absurd heq.1 h⟩
  case surfaces => exact fun history cause hruns => surfaces_of_runs hdemand hruns

/-- Ten inputs in two bytes, the last one with six bits that stand for nothing. -/
theorem perform_accepts_matching_inputs :
    let operation : Operation := .readDiscreteInputs 0 10
    ∃ request, operation.demand = .ok (.exchange request) ∧
      request.answerOf [2, 2, 0x05, 0xFE] =
        .ok (.bits [true, false, true, false, false, false, false, false, false, true]) ∧
      request.answerOf [2, 3, 0x05, 0xFE] = .error (.byteCountMismatch 3 2) ∧
      request.answerOf [1, 2, 0x05, 0xFE] = .error (.unexpectedFunction 1 2) := by
  intro operation
  have hdemand : operation.demand =
      .ok (.exchange ((Request.bits .readDiscreteInputs ⟨0, 10⟩).map .bits)) := rfl
  refine ⟨_, hdemand, ?_⟩
  obtain ⟨-, hjudged, -, -, hreads, -⟩ := perform_accepts_matching ⟨⟨1⟩, .rtu, 0⟩ hdemand
  refine ⟨?_, ?_, ?_⟩
  · exact (hreads 2 rfl [2, 2, 0x05, 0xFE] rfl _).mpr ⟨rfl, rfl, by decide⟩
  · rw [hjudged 2 [3, 0x05, 0xFE] rfl]
    rfl
  · rw [hjudged 1 [2, 0x05, 0xFE] rfl]
    rfl

end Engine

end ModbusMaster
