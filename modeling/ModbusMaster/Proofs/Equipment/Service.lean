import ModbusMaster.Proofs.Bits.Packing
import ModbusMaster.Proofs.Equipment.Server

/-!
The requests of the master as the equipment serves them. `Request.Served` says that the equipment
executes a request and that the request takes the right answer out of the reply; there is one
lemma for each kind of request.
-/

namespace ModbusMaster

theorem word_bigEndian (w : UInt16) :
    word (UInt8.ofNat (w.toNat / 256)) (UInt8.ofNat (w.toNat % 256)) = w := by
  have h := wordsOf_bigEndian_append w []
  simp only [bigEndian, List.cons_append, List.nil_append, wordsOf] at h
  exact List.head_eq_of_cons_eq h

theorem wordsOf_flatMap_bigEndian (contents : List UInt16) :
    wordsOf (contents.flatMap bigEndian) = contents := by
  induction contents with
  | nil => rfl
  | cons content contents ih => rw [List.flatMap_cons, wordsOf_bigEndian_append, ih]

theorem length_flatMap_bigEndian (contents : List UInt16) :
    (contents.flatMap bigEndian).length = 2 * contents.length := by
  induction contents with
  | nil => rfl
  | cons content contents ih =>
    rw [List.flatMap_cons, List.length_append, length_bigEndian, ih, List.length_cons]
    omega

namespace Server

theorem length_packed (memory : Memory Bool) (start : UInt16) (count : Nat) :
    (packed memory start count).length = Bits.byteCount count := by
  simp [packed, Bits.byteCount]

/-- Where the equipment puts the state of a cell the master finds it. -/
theorem stateAt_packed {memory : Memory Bool} {start : UInt16} {count i : Nat} (h : i < count) :
    Bits.stateAt (packed memory start count) i = memory (start + UInt16.ofNat i) := by
  have hbyte : i / 8 < (packed memory start count).length := by
    rw [length_packed, Bits.byteCount]
    omega
  have hplace : i % 8 < 8 := Nat.mod_lt i (by decide)
  have hindex : 8 * (i / 8) + i % 8 = i := Nat.div_add_mod i 8
  rw [Bits.stateAt, List.getD_eq_getElem _ _ hbyte]
  simp only [packed, List.getElem_map, List.getElem_range]
  rw [UInt8.toNat_ofNat_of_lt' (Nat.ofBits_lt_two_pow _), Nat.testBit_ofBits_lt _ _ hplace]
  show (decide (8 * (i / 8) + i % 8 < count) && memory _) = _
  rw [hindex, decide_eq_true h, Bool.true_and]

theorem unpack?_packed (memory : Memory Bool) (start : UInt16) (count : Nat) :
    Bits.unpack? (packed memory start count) count = some (memory.read start count) := by
  unfold Bits.unpack?
  rw [if_neg (by rw [length_packed]; exact Nat.lt_irrefl _)]
  congr 1
  apply List.map_congr_left
  intro i hi
  exact stateAt_packed (List.mem_range.mp hi)

/-- Where the master puts a state the equipment finds it. -/
theorem states_pack (values : List Bool) : states (Bits.pack values) values.length = values := by
  apply List.ext_getElem
  · simp [states]
  · intro i _ hi
    simp only [states, List.getElem_map, List.getElem_range]
    exact (Bits.stateAt_pack values i).trans (List.getD_eq_getElem values _ hi)

end Server

/-- A range that a request may name. -/
structure AddressRange.Fits (range : AddressRange) (limit : Nat) : Prop where
  count_pos : 0 < range.count.toNat
  stop_le : range.start.toNat + range.count.toNat ≤ 65536
  count_le : range.count.toNat ≤ limit

theorem AddressRange.Fits.mono {range : AddressRange} {limit limit' : Nat} (h : range.Fits limit)
    (hle : limit ≤ limit') : range.Fits limit' :=
  ⟨h.count_pos, h.stop_le, Nat.le_trans h.count_le hle⟩

/-- The equipment executes a request, and the request takes its answer out of the reply. -/
structure Request.Served {α : Type} (request : Request α) (image : Image) (value : α)
    (after : Image) : Prop where
  reply : ∃ data, Server.handle image request.function.code request.payload = .ok (data, after) ∧
    data.length + 1 = request.replyLength ∧ request.answer data = .ok value
  payload_le : request.payload.length ≤ 253
  le_reply : 2 ≤ request.replyLength
  reply_le : request.replyLength ≤ 254

/-- A request that fits in one frame of either framing, and so does its reply. -/
structure Request.Sized {α : Type} (request : Request α) : Prop where
  payload_le : request.payload.length ≤ 253
  reply_le : request.replyLength ≤ 254

namespace Request

variable {α β : Type} {image after : Image} {range : AddressRange}

theorem Served.sized {request : Request α} {value : α} (h : request.Served image value after) :
    request.Sized :=
  ⟨h.payload_le, h.reply_le⟩

theorem Served.map {request : Request α} {value : α} (h : request.Served image value after)
    (f : α → β) : (request.map f).Served image (f value) after := by
  obtain ⟨⟨data, hhandle, hlength, hanswer⟩, hpayload, hleast, hreply⟩ := h
  refine ⟨⟨data, hhandle, hlength, ?_⟩, hpayload, hleast, hreply⟩
  show (request.answer data).map f = .ok (f value)
  rw [hanswer]
  rfl

theorem checkRange_eq_ok {limit : Nat} (h : range.Fits limit) :
    Server.checkRange limit range.start range.count = .ok () := by
  obtain ⟨hpos, hstop, hcount⟩ := h
  rw [Server.checkRange, if_neg (by omega), if_neg (by omega)]

/-- Behind its own length a byte string is taken whole. -/
theorem countedBytes_length {bytes : Bytes} (h : bytes.length < 256) :
    countedBytes (UInt8.ofNat bytes.length :: bytes) bytes.length = .ok bytes := by
  have hcount : (UInt8.ofNat bytes.length).toNat = bytes.length := UInt8.toNat_ofNat_of_lt' h
  rw [countedBytes, if_pos ⟨hcount, Nat.le_refl _⟩, List.take_length]

theorem readBits_encode {memory : Memory Bool} (h : range.Fits 2000) :
    Server.readBits memory range.encode =
      .ok (UInt8.ofNat (Server.packed memory range.start range.count.toNat).length ::
        Server.packed memory range.start range.count.toNat) := by
  simp only [AddressRange.encode, bigEndian, List.cons_append, List.nil_append, Server.readBits,
    word_bigEndian, checkRange_eq_ok h]
  rfl

theorem readRegisters_encode {memory : Memory UInt16} (h : range.Fits 125) :
    Server.readRegisters memory range.encode =
      .ok (UInt8.ofNat ((memory.read range.start range.count.toNat).flatMap bigEndian).length ::
        (memory.read range.start range.count.toNat).flatMap bigEndian) := by
  simp only [AddressRange.encode, bigEndian, List.cons_append, List.nil_append,
    Server.readRegisters, word_bigEndian, checkRange_eq_ok h]
  rfl

/-- The states of a range, whichever cells the function reads. -/
theorem bits_served {function : Function} {memory : Memory Bool} (h : range.Fits 2000)
    (hhandle : ∀ data, Server.handle image function.code data =
      (Server.readBits memory data).map (·, image)) :
    (bits function range).Served image (memory.read range.start range.count.toNat) image := by
  have hcount := h.count_le
  have hlength := Server.length_packed memory range.start range.count.toNat
  have hsmall : Bits.byteCount range.count.toNat ≤ 250 := by
    rw [Bits.byteCount]
    omega
  have hreply := (hhandle range.encode).trans (congrArg _ (readBits_encode h))
  refine ⟨⟨_, hreply, ?_, ?_⟩, (by decide : 4 ≤ 253), Nat.le_add_right _ _, ?_⟩
  · rw [List.length_cons, hlength]
    simp only [bits]
    omega
  · have hcounted := countedBytes_length
      (show (Server.packed memory range.start range.count.toNat).length < 256 by omega)
    rw [hlength] at hcounted
    simp only [bits, hlength, hcounted, bind, Except.bind, Server.unpack?_packed]
  · simp only [bits]
    omega

/-- Registers are taken out of a reply as they were put into it. -/
theorem wordsOf_countedBytes {contents : List UInt16} {count : Nat}
    (hcount : contents.length = count) (hsmall : count < 128) :
    wordsOf <$> countedBytes (UInt8.ofNat (contents.flatMap bigEndian).length ::
      contents.flatMap bigEndian) (2 * count) = .ok contents := by
  have hlength : (contents.flatMap bigEndian).length = 2 * count := by
    rw [length_flatMap_bigEndian, hcount]
  have hcounted := countedBytes_length
    (show (contents.flatMap bigEndian).length < 256 by omega)
  rw [hlength] at hcounted
  rw [hlength, hcounted]
  exact congrArg Except.ok (wordsOf_flatMap_bigEndian contents)

/-- The contents of a range, whichever registers the function reads. -/
theorem registers_served {function : Function} {memory : Memory UInt16} (h : range.Fits 120)
    (hhandle : ∀ data, Server.handle image function.code data =
      (Server.readRegisters memory data).map (·, image)) :
    (registers function range).Served image (memory.read range.start range.count.toNat)
      image := by
  have hcount := h.count_le
  have hreply := (hhandle range.encode).trans
    (congrArg _ (readRegisters_encode (h.mono (by decide))))
  refine ⟨⟨_, hreply, ?_, ?_⟩, (by decide : 4 ≤ 253), Nat.le_add_right _ _, ?_⟩
  · rw [List.length_cons, length_flatMap_bigEndian, Memory.length_read]
    simp only [registers]
    omega
  · exact wordsOf_countedBytes (Memory.length_read _) (by omega)
  · simp only [registers]
    omega

theorem exceptionStatus_served : exceptionStatus.Served image image.exceptionStatus image :=
  ⟨⟨_, rfl, rfl, rfl⟩, by decide, by decide, by decide⟩

/-- A word is found behind what stands in front of it. -/
theorem wordAt_append (before : Bytes) (w : UInt16) (rest : Bytes) :
    wordAt (before ++ (bigEndian w ++ rest)) before.length = .ok w := by
  unfold wordAt
  rw [List.drop_left]
  show Except.ok (word _ _) = _
  rw [word_bigEndian]

theorem wordAt_two_words (a b : UInt16) :
    wordAt (bigEndian a ++ bigEndian b) 0 = .ok a ∧
      wordAt (bigEndian a ++ bigEndian b) 2 = .ok b :=
  ⟨wordAt_append [] a (bigEndian b), wordAt_append (bigEndian a) b []⟩

theorem wordAt_three_words (a b c : UInt16) :
    wordAt (bigEndian a ++ bigEndian b ++ bigEndian c) 0 = .ok a ∧
      wordAt (bigEndian a ++ bigEndian b ++ bigEndian c) 2 = .ok b ∧
      wordAt (bigEndian a ++ bigEndian b ++ bigEndian c) 4 = .ok c :=
  ⟨wordAt_append [] a (bigEndian b ++ bigEndian c), wordAt_append (bigEndian a) b (bigEndian c),
    wordAt_append (bigEndian a ++ bigEndian b) c []⟩

theorem eventCounter_served : eventCounter.Served image image.counter image := by
  refine ⟨⟨_, rfl, rfl, ?_⟩, by decide, by decide, by decide⟩
  obtain ⟨hstatus, hcount⟩ := wordAt_two_words image.counter.status image.counter.eventCount
  simp only [eventCounter, hstatus, hcount, bind, Except.bind]

theorem echoed_self [DecidableEq α] (written : α) : echoed written written = .ok () :=
  if_pos rfl

theorem coilState_coilWord (state : Bool) : coilState (coilWord state) = .ok state := by
  cases state <;> rfl

theorem writeCoil_served (address : UInt16) (state : Bool) :
    (writeCoil address state).Served image () (image.after (.writeCoil address state)) := by
  refine ⟨⟨bigEndian address ++ bigEndian (coilWord state), ?_, rfl, ?_⟩,
    (by decide : 4 ≤ 253), (by decide : 2 ≤ 5), (by decide : 5 ≤ 254)⟩
  · show Server.writeCoil image (bigEndian address ++ bigEndian (coilWord state)) = _
    simp only [bigEndian, List.cons_append, List.nil_append, Server.writeCoil, word_bigEndian]
    cases state <;> rfl
  · obtain ⟨haddress, hstate⟩ := wordAt_two_words address (coilWord state)
    simp only [writeCoil, haddress, hstate, bind, Except.bind, coilState_coilWord, echoed_self]

theorem writeRegister_served (address content : UInt16) :
    (writeRegister address content).Served image ()
      (image.after (.writeRegister address content)) := by
  refine ⟨⟨bigEndian address ++ bigEndian content, ?_, rfl, ?_⟩,
    (by decide : 4 ≤ 253), (by decide : 2 ≤ 5), (by decide : 5 ≤ 254)⟩
  · show Server.writeRegister image (bigEndian address ++ bigEndian content) = _
    simp only [bigEndian, List.cons_append, List.nil_append, Server.writeRegister, word_bigEndian]
    rfl
  · obtain ⟨haddress, hcontent⟩ := wordAt_two_words address content
    simp only [writeRegister, haddress, hcontent, bind, Except.bind, echoed_self]

theorem maskWrite_served (address andMask orMask : UInt16) :
    (maskWrite address andMask orMask).Served image ()
      (image.after (.maskWriteRegister address andMask orMask)) := by
  refine ⟨⟨bigEndian address ++ bigEndian andMask ++ bigEndian orMask, ?_, rfl, ?_⟩,
    (by decide : 6 ≤ 253), (by decide : 2 ≤ 7), (by decide : 7 ≤ 254)⟩
  · show Server.maskWrite image (bigEndian address ++ bigEndian andMask ++ bigEndian orMask) = _
    simp only [bigEndian, List.cons_append, List.nil_append, Server.maskWrite, word_bigEndian]
    rfl
  · obtain ⟨haddress, hand, hor⟩ := wordAt_three_words address andMask orMask
    simp only [maskWrite, haddress, hand, hor, bind, Except.bind, echoed_self]

theorem writeCoils_block {states : List Bool} (h : range.Fits 1968)
    (hcount : range.count.toNat = states.length) :
    Server.writeCoils image (block range (Bits.pack states)) =
      .ok (range.encode, image.after (.writeCoils range.start states)) := by
  have hle := h.count_le
  have hlength : (Bits.pack states).length = (range.count.toNat + 7) / 8 := by
    rw [Bits.length_pack, hcount]
    rfl
  have hbyte : (UInt8.ofNat (Bits.pack states).length).toNat = (Bits.pack states).length :=
    UInt8.toNat_ofNat_of_lt' (show _ < 256 by omega)
  have hstates : Server.states (Bits.pack states) range.count.toNat = states := by
    rw [hcount, Server.states_pack]
  simp only [block, AddressRange.encode, bigEndian, List.cons_append, List.nil_append,
    Server.writeCoils, word_bigEndian, checkRange_eq_ok h, bind, Except.bind]
  rw [if_pos ⟨hbyte, hlength⟩, hstates]
  rfl

theorem writeRegisters_block {limit : Nat} {contents : List UInt16} (h : range.Fits limit)
    (hlimit : limit ≤ 123) (hcount : range.count.toNat = contents.length) :
    Server.writeRegisters limit image (block range (contents.flatMap bigEndian)) =
      .ok (range.encode, image.after (.writeRegisters range.start contents)) := by
  have hle := h.count_le
  have hlength := length_flatMap_bigEndian contents
  rw [← hcount] at hlength
  have hbyte : (UInt8.ofNat (contents.flatMap bigEndian).length).toNat =
      (contents.flatMap bigEndian).length :=
    UInt8.toNat_ofNat_of_lt' (show _ < 256 by omega)
  simp only [block, AddressRange.encode, bigEndian, List.cons_append, List.nil_append,
    Server.writeRegisters, word_bigEndian, checkRange_eq_ok h, bind, Except.bind]
  rw [if_pos ⟨hbyte, hlength⟩, wordsOf_flatMap_bigEndian]
  rfl

/-- A write of a range is answered by the range. -/
theorem writeBlock_answer (function : Function) (bytes : Bytes) :
    (writeBlock function range bytes).answer range.encode = .ok () := by
  obtain ⟨hstart, hcount⟩ := wordAt_two_words range.start range.count
  simp only [writeBlock, AddressRange.encode, hstart, hcount, bind, Except.bind, echoed_self]

theorem length_block (bytes : Bytes) : (block range bytes).length = bytes.length + 5 := by
  rw [block, List.length_append, List.length_cons]
  show 4 + (bytes.length + 1) = bytes.length + 5
  omega

theorem writeCoils_served {states : List Bool} (h : range.Fits 1968)
    (hcount : range.count.toNat = states.length) :
    (writeBlock .writeMultipleCoils range (Bits.pack states)).Served image ()
      (image.after (.writeCoils range.start states)) := by
  have hle := h.count_le
  refine ⟨⟨range.encode, writeCoils_block h hcount, rfl, writeBlock_answer _ _⟩, ?_,
    (by decide : 2 ≤ 5), (by decide : 5 ≤ 254)⟩
  show (block range (Bits.pack states)).length ≤ 253
  rw [length_block, Bits.length_pack, Bits.byteCount]
  omega

theorem writeRegisters_served {contents : List UInt16} (h : range.Fits 120)
    (hcount : range.count.toNat = contents.length) :
    (writeBlock .writeMultipleRegisters range (contents.flatMap bigEndian)).Served image ()
      (image.after (.writeRegisters range.start contents)) := by
  have hle := h.count_le
  refine ⟨⟨range.encode, writeRegisters_block (h.mono (by decide)) (by decide) hcount, rfl,
    writeBlock_answer _ _⟩, ?_, (by decide : 2 ≤ 5), (by decide : 5 ≤ 254)⟩
  show (block range (contents.flatMap bigEndian)).length ≤ 253
  rw [length_block, length_flatMap_bigEndian]
  omega

/-- What is read is read after the write. -/
theorem readWrite_served {read written : AddressRange} {contents : List UInt16}
    (hread : read.Fits 120) (hwritten : written.Fits 120)
    (hcount : written.count.toNat = contents.length) :
    (readWrite read written (contents.flatMap bigEndian)).Served image
      ((image.holding.write written.start contents).read read.start read.count.toNat)
      (image.after (.readWriteRegisters read.start read.count written.start contents)) := by
  have hreadLe := hread.count_le
  have hwrittenLe := hwritten.count_le
  -- the equipment has limits of its own, 125 registers to read and 121 to write
  have hwrite : Server.writeRegisters 121 image (block written (contents.flatMap bigEndian)) =
      _ := writeRegisters_block (hwritten.mono (by decide)) (by decide) hcount
  have hreply : Server.readRegisters (image.holding.write written.start contents) read.encode =
      _ := readRegisters_encode (hread.mono (by decide))
  have hcheck : Server.checkRange 125
      (word (UInt8.ofNat (read.start.toNat / 256)) (UInt8.ofNat (read.start.toNat % 256)))
      (word (UInt8.ofNat (read.count.toNat / 256)) (UInt8.ofNat (read.count.toNat % 256))) =
      .ok () := by
    rw [word_bigEndian, word_bigEndian, checkRange_eq_ok (hread.mono (by decide))]
  have hhandle : Server.readWrite image
      (read.encode ++ block written (contents.flatMap bigEndian)) =
      (Server.readRegisters (image.holding.write written.start contents) read.encode).map
        (·, image.after (.readWriteRegisters read.start read.count written.start contents)) := by
    simp only [AddressRange.encode, bigEndian, List.cons_append, List.nil_append,
      Server.readWrite, hcheck, hwrite, bind, Except.bind]
    rfl
  rw [hreply] at hhandle
  refine ⟨⟨_, hhandle, ?_, ?_⟩, ?_, Nat.le_add_right _ _, ?_⟩
  · rw [List.length_cons, length_flatMap_bigEndian, Memory.length_read]
    simp only [readWrite]
    omega
  · exact wordsOf_countedBytes (Memory.length_read _) (by omega)
  · show (read.encode ++ block written (contents.flatMap bigEndian)).length ≤ 253
    rw [List.length_append, length_block, length_flatMap_bigEndian]
    show 4 + (2 * contents.length + 5) ≤ 253
    omega
  · simp only [readWrite]
    omega

end Request

namespace Operation

open Request

theorem rangeFor_eq (limit start count : UInt16) :
    rangeFor limit start count = match rangeRefusal? limit start count with
      | some cause => .error cause
      | none => .ok ⟨start, count⟩ := by
  unfold rangeFor AddressRange.limited AddressRange.of rangeRefusal?
  by_cases hzero : count = 0
  · rw [if_pos hzero, if_pos (by rw [hzero]; rfl)]
    rfl
  · have hpos : count.toNat ≠ 0 := fun h => hzero (UInt16.toNat_inj.mp h)
    rw [if_neg hzero, if_neg hpos]
    by_cases hoverflow : 65536 < start.toNat + count.toNat
    · rw [if_pos hoverflow, if_pos hoverflow]
      rfl
    · rw [if_neg hoverflow, if_neg hoverflow]
      show Except.mapError InvalidRequest.badRange (if limit < count then _ else _) = _
      by_cases hlimit : limit < count
      · rw [if_pos hlimit, if_pos (UInt16.lt_iff_toNat_lt.mp hlimit)]
        rfl
      · rw [if_neg hlimit, if_neg (fun h => hlimit (UInt16.lt_iff_toNat_lt.mpr h))]
        rfl

theorem fits_of_rangeRefusal? {limit start count : UInt16}
    (h : rangeRefusal? limit start count = none) :
    AddressRange.Fits ⟨start, count⟩ limit.toNat := by
  unfold rangeRefusal? at h
  split at h
  next => cases h
  next hpos =>
    split at h
    next => cases h
    next hstop =>
      split at h
      next => cases h
      next hlimit =>
        exact ⟨Nat.pos_of_ne_zero hpos, Nat.le_of_not_lt hstop, Nat.le_of_not_lt hlimit⟩

theorem rangeOfValues_eq (limit start : UInt16) (values : Nat) :
    rangeOfValues limit start values = match valuesRefusal? limit start values with
      | some cause => .error cause
      | none => .ok ⟨start, UInt16.ofNat values⟩ := by
  unfold rangeOfValues valuesRefusal?
  by_cases hvalues : 65535 < values
  · rw [if_pos hvalues, if_pos hvalues]
  · rw [if_neg hvalues, if_neg hvalues]
    exact rangeFor_eq limit start (UInt16.ofNat values)

theorem fits_of_valuesRefusal? {limit start : UInt16} {values : Nat}
    (h : valuesRefusal? limit start values = none) :
    AddressRange.Fits ⟨start, UInt16.ofNat values⟩ limit.toNat ∧
      (UInt16.ofNat values).toNat = values := by
  unfold valuesRefusal? at h
  split at h
  next => cases h
  next hvalues =>
    exact ⟨fits_of_rangeRefusal? h, UInt16.toNat_ofNat_of_lt' (show values < 65536 by omega)⟩

theorem countable_eq_ok {bytes : Bytes} (h : bytes.length ≤ 255) : countable bytes = .ok bytes :=
  if_neg (Nat.not_lt.mpr h)

/-- What an operation demands is refused as the memory refuses it, or served. -/
inductive Demanded (operation : Operation) (image : Image) : Prop where
  | refused {cause : InvalidRequest} (refusal : operation.refusal? = some cause)
      (demand : operation.demand = .error cause)
  | exchange {request : Request Value} (refusal : operation.refusal? = none)
      (demand : operation.demand = .ok (.exchange request))
      (served : request.Served image (image.answer operation) (image.after operation))
  | broadcast {request : Request Unit} (refusal : operation.refusal? = none)
      (demand : operation.demand = .ok (.broadcast request.function request.payload))
      (answer : image.answer operation = .nothing)
      (served : request.Served image () (image.after operation))

variable {α : Type} {operation : Operation} {image : Image} {limit start : UInt16}
  {build : AddressRange → Request α} {buildBlock : AddressRange → Bytes → Request α} {bytes : Bytes}
  {f : α → Value}

/-- An operation on a range within a limit. -/
theorem demanded_of_range {count : UInt16}
    (hrefusal : operation.refusal? = rangeRefusal? limit start count)
    (hdemand : operation.demand =
      (fun r => .exchange (r.map f)) <$> build <$> rangeFor limit start count)
    (hserved : AddressRange.Fits ⟨start, count⟩ limit.toNat →
      ((build ⟨start, count⟩).map f).Served image (image.answer operation)
        (image.after operation)) :
    operation.Demanded image := by
  rw [rangeFor_eq] at hdemand
  cases h : rangeRefusal? limit start count with
  | some cause =>
    rw [h] at hrefusal hdemand
    exact .refused hrefusal hdemand
  | none =>
    rw [h] at hrefusal hdemand
    exact .exchange hrefusal hdemand (hserved (fits_of_rangeRefusal? h))

/-- An operation that writes values from an address on, within a limit. -/
theorem demanded_of_values {values : Nat}
    (hrefusal : operation.refusal? = valuesRefusal? limit start values)
    (hdemand : operation.demand = (fun r => .exchange (r.map f)) <$>
      (rangeOfValues limit start values >>= fun range =>
        countable bytes >>= fun bytes => .ok (buildBlock range bytes)))
    (hbytes : values ≤ limit.toNat → bytes.length ≤ 255)
    (hserved : AddressRange.Fits ⟨start, UInt16.ofNat values⟩ limit.toNat →
      (UInt16.ofNat values).toNat = values →
      ((buildBlock ⟨start, UInt16.ofNat values⟩ bytes).map f).Served image (image.answer operation)
        (image.after operation)) :
    operation.Demanded image := by
  rw [rangeOfValues_eq] at hdemand
  cases h : valuesRefusal? limit start values with
  | some cause =>
    rw [h] at hrefusal hdemand
    exact .refused hrefusal hdemand
  | none =>
    obtain ⟨hfits, hcount⟩ := fits_of_valuesRefusal? h
    have hle : values ≤ limit.toNat := by
      rw [← hcount]
      exact hfits.count_le
    rw [countable_eq_ok (hbytes hle), h] at hdemand
    rw [h] at hrefusal
    exact .exchange hrefusal hdemand (hserved hfits hcount)

theorem length_pack_le {states : List Bool} (h : states.length ≤ 1968) :
    (Bits.pack states).length ≤ 255 := by
  rw [Bits.length_pack, Bits.byteCount]
  omega

theorem length_contents_le {contents : List UInt16} (h : contents.length ≤ 120) :
    (contents.flatMap bigEndian).length ≤ 255 := by
  rw [length_flatMap_bigEndian]
  omega

/-- A single coil can always be read. -/
theorem demanded_readCoil (address : UInt16) : (readCoil address).Demanded image := by
  have hrefusal : rangeRefusal? 2000 address 1 = none := by
    -- the range of the last address alone ends at the end of the memory, so it is not refused
    have hstop : ¬ 65536 < address.toNat + UInt16.toNat 1 := by
      have hlt := address.toNat_lt
      show ¬ 65536 < address.toNat + 1
      omega
    rw [rangeRefusal?, if_neg (by decide), if_neg hstop, if_neg (by decide)]
  have hrange := rangeFor_eq 2000 address 1
  rw [hrefusal] at hrange
  have hserved : (bits .readCoils ⟨address, 1⟩).Served image (image.coils.read address 1) image :=
    bits_served (fits_of_rangeRefusal? hrefusal) fun _ => rfl
  have hfirst : firstState (image.coils.read address 1) = .ok (image.coils address) := by
    show Except.ok (image.coils (address + 0)) = _
    rw [UInt16.add_zero]
  obtain ⟨⟨data, hhandle, hlength, hanswer⟩, hpayload, hleast, hreply⟩ := hserved
  -- the request is the one for a range of one cell, but its answer is the state in it
  let request : Request Bool := { bits .readCoils ⟨address, 1⟩ with
    answer := fun data => (bits .readCoils ⟨address, 1⟩).answer data >>= firstState }
  have hrequest : request.Served image (image.coils address) image := by
    refine ⟨⟨data, hhandle, hlength, ?_⟩, hpayload, hleast, hreply⟩
    show (bits .readCoils ⟨address, 1⟩).answer data >>= firstState = _
    rw [hanswer]
    exact hfirst
  have hdemand : (readCoil address).demand = .ok (.exchange (request.map .bit)) := by
    show _ <$> ((_ <$> rangeFor 2000 address 1) >>= _) = _
    rw [hrange]
    rfl
  exact .exchange rfl hdemand (hrequest.map Value.bit)

/-- The range that is read is checked before the one that is written. -/
theorem demanded_readWriteRegisters (readStart readCount writeStart : UInt16)
    (contents : List UInt16) :
    (readWriteRegisters readStart readCount writeStart contents).Demanded image := by
  have hread := rangeFor_eq 120 readStart readCount
  have hwritten := rangeOfValues_eq 120 writeStart contents.length
  have hdemand : (readWriteRegisters readStart readCount writeStart contents).demand =
      (fun r => Demand.exchange (r.map .registers)) <$>
        (rangeFor 120 readStart readCount >>= fun read =>
          rangeOfValues 120 writeStart contents.length >>= fun written =>
            countable (contents.flatMap bigEndian) >>= fun bytes =>
              .ok (readWrite read written bytes)) := rfl
  have hrefusal : (readWriteRegisters readStart readCount writeStart contents).refusal? =
      (rangeRefusal? 120 readStart readCount).or
        (valuesRefusal? 120 writeStart contents.length) := rfl
  -- a refusal of the first range hides one of the second
  cases hfirst : rangeRefusal? 120 readStart readCount with
  | some cause =>
    rw [hfirst] at hread hrefusal
    rw [hread] at hdemand
    exact .refused hrefusal hdemand
  | none =>
    rw [hfirst] at hread hrefusal
    rw [hread] at hdemand
    cases hsecond : valuesRefusal? 120 writeStart contents.length with
    | some cause =>
      rw [hsecond] at hwritten hrefusal
      rw [hwritten] at hdemand
      exact .refused hrefusal hdemand
    | none =>
      obtain ⟨hfits, hcount⟩ := fits_of_valuesRefusal? hsecond
      rw [hsecond] at hwritten hrefusal
      rw [hwritten, countable_eq_ok (length_contents_le (hcount ▸ hfits.count_le))] at hdemand
      exact .exchange hrefusal hdemand
        ((readWrite_served (fits_of_rangeRefusal? hfirst) hfits hcount).map _)

/-- Every operation is refused as the memory refuses it, or served. -/
theorem demanded (operation : Operation) (image : Image) : operation.Demanded image := by
  cases operation with
  | readCoil address => exact demanded_readCoil address
  | readCoils start count =>
    exact demanded_of_range rfl rfl fun h => (bits_served h fun _ => rfl).map _
  | readDiscreteInputs start count =>
    exact demanded_of_range rfl rfl fun h => (bits_served h fun _ => rfl).map _
  | readHoldingRegisters start count =>
    exact demanded_of_range rfl rfl fun h => (registers_served h fun _ => rfl).map _
  | readInputRegisters start count =>
    exact demanded_of_range rfl rfl fun h => (registers_served h fun _ => rfl).map _
  | writeCoil address state => exact .exchange rfl rfl ((writeCoil_served address state).map _)
  | writeCoils start states =>
    exact demanded_of_values rfl rfl length_pack_le fun h hcount =>
      (writeCoils_served h hcount).map _
  | writeRegister address content =>
    exact .exchange rfl rfl ((writeRegister_served address content).map _)
  | writeRegisters start contents =>
    exact demanded_of_values rfl rfl length_contents_le fun h hcount =>
      (writeRegisters_served h hcount).map _
  | maskWriteRegister address andMask orMask =>
    exact .exchange rfl rfl ((maskWrite_served address andMask orMask).map _)
  | readWriteRegisters readStart readCount writeStart contents =>
    exact demanded_readWriteRegisters readStart readCount writeStart contents
  | broadcastRegister address content =>
    exact .broadcast rfl rfl rfl (writeRegister_served address content)
  | readExceptionStatus => exact .exchange rfl rfl (exceptionStatus_served.map _)
  | fetchEventCounter => exact .exchange rfl rfl (eventCounter_served.map _)

end Operation

end ModbusMaster
