import ModbusMaster.Config
import ModbusMaster.Proofs.Cache.Polling
import ModbusMaster.Proofs.Results
import ModbusMaster.Proofs.Text.Grammar

/-!
The descriptors of blocks. What they look like is said once without the reader; the reader takes
these and no others, and what it says of another is the first of its checks that fails. A block that
has been read, or made of a range, is one that the engine sends a request for.
-/

namespace ModbusMaster

/-- How many cells of a kind one frame holds. -/
def CacheFunction.perFrame : CacheFunction → Nat
  | readInputStatus | readMultipleCoils => 2000
  | readHoldingRegisters | readInputRegisters => 120

namespace CacheFunction

variable {function : CacheFunction} {text : List Char} {start count : UInt16}

theorem toNat_limit (function : CacheFunction) : function.limit.toNat = function.perFrame := by
  cases function <;> rfl

/-- A literal is the text of its characters, so these are looked at. -/
theorem letters_of_chars {chars : List Char}
    (h : ∀ code ∈ chars.map Char.toNat, 0x41 ≤ code ∧ code ≤ 0x7A) :
    ∀ c ∈ (String.ofList chars).toList, 0x41 ≤ c.toNat ∧ c.toNat ≤ 0x7A := by
  rw [String.toList_ofList]
  exact List.forall_mem_map.mp h

/-- Names are made of letters. -/
theorem letters_of_mem_name (function : CacheFunction) :
    ∀ c ∈ function.name.toList, 0x41 ≤ c.toNat ∧ c.toNat ≤ 0x7A := by
  cases function <;> exact letters_of_chars (by decide)

theorem ofName?_name (function : CacheFunction) :
    ofName? function.name.toList = some function := by
  cases function <;> decide +kernel

/-- A name stands for one function, the one that has it. -/
theorem ofName?_eq_some_iff : ofName? text = some function ↔ text = function.name.toList := by
  constructor
  · intro h
    have hfound : (function.name.toList == text) = true := by
      unfold ofName? at h
      exact (List.find?_eq_some_iff_append.mp h).1
    exact (beq_iff_eq.mp hfound).symm
  · intro h
    rw [h]
    exact ofName?_name function

theorem name_inj {other : CacheFunction} :
    function.name.toList = other.name.toList ↔ function = other := by
  rw [← ofName?_eq_some_iff, ofName?_name, Option.some.injEq, eq_comm]

end CacheFunction

namespace CacheBlock

/-! ### What a descriptor looks like -/

/-- The three fields of a descriptor, without the blanks around them. -/
def Fields (descriptor function start count : List Char) : Prop :=
  ∃ first second third, descriptor = first ++ ',' :: (second ++ ',' :: third) ∧
    (',' ∉ first ∧ ',' ∉ second ∧ ',' ∉ third) ∧
    Text.Trims first function ∧ Text.Trims second start ∧ Text.Trims third count

/-- What is checked of the three fields. -/
def Check (function start count : List Char) : Fault → Prop
  | .fieldCount => True
  | .functionName => ∃ kind : CacheFunction, function = kind.name.toList
  | .startAddress => ∃ m, Numeral.Denotes start m ∧ m ≤ 65535
  | .count => ∃ n, Numeral.Denotes count n ∧ n ≤ 65535
  | .addressRange => ∃ m n, Numeral.Denotes start m ∧ Numeral.Denotes count n ∧
      1 ≤ n ∧ m + n ≤ 65536
  | .frame => ∃ (kind : CacheFunction) (n : Nat), function = kind.name.toList ∧
      Numeral.Denotes count n ∧ n ≤ kind.perFrame

/-- A descriptor passes a check: it has three fields, and the check holds of them. -/
def Passes (descriptor : List Char) (fault : Fault) : Prop :=
  ∃ function start count, Fields descriptor function start count ∧
    Check function start count fault

/-- The checks in their order. -/
def checks : List Fault :=
  [.fieldCount, .functionName, .startAddress, .count, .addressRange, .frame]

/-- The first of some checks that a descriptor does not pass. -/
inductive FirstFault (descriptor : List Char) : List Fault → Fault → Prop where
  | here {check : Fault} {later : List Fault} (hfails : ¬Passes descriptor check) :
      FirstFault descriptor (check :: later) check
  | later {check fault : Fault} {later : List Fault} (hpasses : Passes descriptor check)
      (hlater : FirstFault descriptor later fault) :
      FirstFault descriptor (check :: later) fault

/-- A descriptor has the name of a function and two numerals, and these make up a block. -/
def Describes (descriptor : List Char) (block : CacheBlock) : Prop :=
  ∃ start count, Fields descriptor block.function.name.toList start count ∧
    Numeral.Denotes start block.range.start.toNat ∧
    Numeral.Denotes count block.range.count.toNat ∧
    block.range.Fits block.function.perFrame

section Descriptors

variable {descriptor function start count : List Char} {fault fault' : Fault}
  {block : CacheBlock} {kind : CacheFunction}

theorem fields_iff : Fields descriptor function start count ↔
    (Text.fields ',' descriptor).map Text.trim = [function, start, count] := by
  constructor
  · rintro ⟨first, second, third, rfl, ⟨hfirst, hsecond, hthird⟩, hfunction, hstart, hcount⟩
    have hparts : Text.fields ',' (first ++ ',' :: (second ++ ',' :: third)) =
        [first, second, third] := by
      refine Text.fields_eq_iff.mpr ⟨List.cons_ne_nil _ _, ?_, ?_⟩
      · simp only [List.forall_mem_cons]
        exact ⟨hfirst, hsecond, hthird, List.forall_mem_nil _⟩
      · simp [List.intercalate]
    rw [hparts, List.map_cons, List.map_cons, List.map_singleton,
      Text.trim_eq_iff.mpr hfunction, Text.trim_eq_iff.mpr hstart, Text.trim_eq_iff.mpr hcount]
  · intro h
    obtain ⟨first, rest, hparts, hfunction, hrest⟩ := List.map_eq_cons_iff.mp h
    obtain ⟨second, others, rfl, hstart, hothers⟩ := List.map_eq_cons_iff.mp hrest
    obtain ⟨third, nothing, rfl, hcount, hnothing⟩ := List.map_eq_cons_iff.mp hothers
    cases List.map_eq_nil_iff.mp hnothing
    obtain ⟨-, hcommas, htext⟩ := Text.fields_eq_iff.mp hparts
    simp only [List.forall_mem_cons] at hcommas
    refine ⟨first, second, third, ?_, ⟨hcommas.1, hcommas.2.1, hcommas.2.2.1⟩,
      Text.trim_eq_iff.mp hfunction, Text.trim_eq_iff.mp hstart, Text.trim_eq_iff.mp hcount⟩
    rw [htext]
    simp [List.intercalate]

/-- As the fields are settled by the descriptor, a check is one of them. -/
theorem Fields.passes_iff (h : Fields descriptor function start count) :
    Passes descriptor fault ↔ Check function start count fault := by
  constructor
  · rintro ⟨function', start', count', h', hcheck⟩
    have hfields := (fields_iff.mp h').symm.trans (fields_iff.mp h)
    cases hfields
    exact hcheck
  · exact fun hcheck => ⟨function, start, count, h, hcheck⟩

theorem FirstFault.unique {later : List Fault} (h : FirstFault descriptor later fault)
    (h' : FirstFault descriptor later fault') : fault = fault' := by
  induction h with
  | here hfails =>
    cases h' with
    | here => rfl
    | later hpasses => exact absurd hpasses hfails
  | later hpasses _ ih =>
    cases h' with
    | here hfails => exact absurd hpasses hfails
    | later _ hlater => exact ih hlater

theorem FirstFault.not_passes {later : List Fault} (h : FirstFault descriptor later fault) :
    ¬Passes descriptor fault := by
  induction h with
  | here hfails => exact hfails
  | later _ _ ih => exact ih

theorem Describes.passes (h : Describes descriptor block) (fault : Fault) :
    Passes descriptor fault := by
  obtain ⟨start, count, hfields, hstart, hcount, hfits⟩ := h
  apply hfields.passes_iff.mpr
  cases fault with
  | fieldCount => exact trivial
  | functionName => exact ⟨block.function, rfl⟩
  | startAddress => exact ⟨_, hstart, Nat.le_of_lt_succ block.range.start.toNat_lt⟩
  | count => exact ⟨_, hcount, Nat.le_of_lt_succ block.range.count.toNat_lt⟩
  | addressRange => exact ⟨_, _, hstart, hcount, hfits.count_pos, hfits.stop_le⟩
  | frame => exact ⟨block.function, _, rfl, hcount, hfits.count_le⟩

theorem Describes.unique {block' : CacheBlock} (h : Describes descriptor block)
    (h' : Describes descriptor block') : block = block' := by
  obtain ⟨start, count, hfields, hstart, hcount, -⟩ := h
  obtain ⟨start', count', hfields', hstart', hcount', -⟩ := h'
  have hsame := (fields_iff.mp hfields).symm.trans (fields_iff.mp hfields')
  simp only [List.cons.injEq, and_true] at hsame
  obtain ⟨hname, rfl, rfl⟩ := hsame
  have hfunction := CacheFunction.name_inj.mp hname
  have hfirst := UInt16.toNat_inj.mp (hstart.unique hstart')
  have hlength := UInt16.toNat_inj.mp (hcount.unique hcount')
  obtain ⟨function, first, length⟩ := block
  obtain ⟨function', first', length'⟩ := block'
  cases hfunction
  cases hfirst
  cases hlength
  rfl

/-! ### What is made of a range -/

variable {m n : UInt16}

theorem range_eq_ok_iff {range : AddressRange} : AddressRange.of m n = .ok range ↔
    (1 ≤ n.toNat ∧ m.toNat + n.toNat ≤ 65536) ∧ range = ⟨m, n⟩ := by
  have hpos : n ≠ 0 ↔ 1 ≤ n.toNat := by
    rw [Nat.one_le_iff_ne_zero, ne_eq, ne_eq, ← UInt16.toNat_inj]
    rfl
  rw [AddressRange.of_eq_ok_iff, hpos, and_assoc]

/-- What is made of a range, and which of its two checks fails first. -/
theorem of_eq (kind : CacheFunction) (m n : UInt16) : of kind m n =
    if 1 ≤ n.toNat ∧ m.toNat + n.toNat ≤ 65536 then
      if n.toNat ≤ kind.perFrame then .ok ⟨kind, ⟨m, n⟩⟩ else .error .frame
    else .error .addressRange := by
  unfold of
  cases hrange : AddressRange.of m n with
  | error cause =>
    rw [if_neg]
    intro h
    rw [range_eq_ok_iff.mpr ⟨h, rfl⟩] at hrange
    cases hrange
  | ok range =>
    obtain ⟨h, rfl⟩ := range_eq_ok_iff.mp hrange
    have hlarge : kind.limit < n ↔ ¬n.toNat ≤ kind.perFrame := by
      rw [UInt16.lt_iff_toNat_lt, kind.toNat_limit, Nat.not_le]
    simp only [hlarge, ite_not, if_pos h]

theorem of_eq_ok_iff : of kind m n = .ok block ↔
    block = ⟨kind, ⟨m, n⟩⟩ ∧ AddressRange.Fits ⟨m, n⟩ kind.perFrame := by
  rw [of_eq]
  split
  next hrange =>
    split
    next hsmall =>
      rw [Except.ok.injEq, eq_comm]
      exact ⟨fun h => ⟨h, hrange.1, hrange.2, hsmall⟩, And.left⟩
    next hlarge => exact ⟨(nomatch ·), fun h => absurd h.2.count_le hlarge⟩
  next hrange =>
    exact ⟨(nomatch ·), fun h => absurd ⟨h.2.count_pos, h.2.stop_le⟩ hrange⟩

/-! ### What the reader makes of a descriptor -/

theorem parse_of_not_fields (h : ¬∃ function start count, Fields descriptor function start count) :
    parse descriptor = .error .fieldCount := by
  unfold parse
  split
  next function start count heq => exact absurd ⟨function, start, count, fields_iff.mpr heq⟩ h
  next => rfl

/-- The result of the reader: the block that is described, or the first check that fails. -/
def Tells (descriptor : List Char) : Except Fault CacheBlock → Prop
  | .ok block => Describes descriptor block
  | .error fault => FirstFault descriptor checks fault

theorem tells_of (h : Fields descriptor kind.name.toList start count)
    (hstart : Numeral.Denotes start m.toNat) (hcount : Numeral.Denotes count n.toNat) :
    Tells descriptor (of kind m n) := by
  have hthree : Passes descriptor .fieldCount := h.passes_iff.mpr trivial
  have hname : Passes descriptor .functionName := h.passes_iff.mpr ⟨kind, rfl⟩
  have hfirst : Passes descriptor .startAddress :=
    h.passes_iff.mpr ⟨_, hstart, Nat.le_of_lt_succ m.toNat_lt⟩
  have hlength : Passes descriptor .count :=
    h.passes_iff.mpr ⟨_, hcount, Nat.le_of_lt_succ n.toNat_lt⟩
  have hfaults : ∀ {later : List Fault} {fault : Fault}, FirstFault descriptor later fault →
      FirstFault descriptor (.fieldCount :: .functionName :: .startAddress :: .count :: later)
        fault := fun hlater =>
    .later hthree (.later hname (.later hfirst (.later hlength hlater)))
  rw [of_eq]
  split
  next hrange =>
    have hpasses : Passes descriptor .addressRange :=
      h.passes_iff.mpr ⟨_, _, hstart, hcount, hrange⟩
    split
    next hsmall => exact ⟨start, count, h, hstart, hcount, hrange.1, hrange.2, hsmall⟩
    next hlarge =>
      have hfails : ¬Passes descriptor .frame := by
        rw [h.passes_iff]
        rintro ⟨kind', n', hkind, hn, hsmall⟩
        rw [CacheFunction.name_inj.mp hkind, ← hn.unique hcount] at hlarge
        exact hlarge hsmall
      exact hfaults (.later hpasses (.here hfails))
  next hrange =>
    have hfails : ¬Passes descriptor .addressRange := by
      rw [h.passes_iff]
      rintro ⟨m', n', hm, hn, hrange'⟩
      rw [hm.unique hstart, hn.unique hcount] at hrange'
      exact hrange hrange'
    exact hfaults (.here hfails)

theorem not_denotes_of_error {text : List Char} {cause : Numeral.Fault}
    (h : Numeral.parseWord text = .error cause) : ¬∃ n, Numeral.Denotes text n ∧ n ≤ 65535 := by
  rw [← Numeral.parseWord_isOk_iff]
  rintro ⟨w, hw⟩
  rw [hw] at h
  cases h

/-- The reader goes through its checks in their order and stops at the first that fails. -/
theorem parse_tells (descriptor : List Char) : Tells descriptor (parse descriptor) := by
  by_cases hfields : ∃ function start count, Fields descriptor function start count
  · obtain ⟨function, start, count, h⟩ := hfields
    have hthree : Passes descriptor .fieldCount := h.passes_iff.mpr trivial
    rw [parse, fields_iff.mp h]
    dsimp only
    cases hkind : CacheFunction.ofName? function with
    | none =>
      have hfails : ¬Passes descriptor .functionName := by
        rw [h.passes_iff]
        rintro ⟨kind, hname⟩
        rw [CacheFunction.ofName?_eq_some_iff.mpr hname] at hkind
        cases hkind
      exact FirstFault.later hthree (.here hfails)
    | some kind =>
      obtain rfl := CacheFunction.ofName?_eq_some_iff.mp hkind
      have hname : Passes descriptor .functionName := h.passes_iff.mpr ⟨kind, rfl⟩
      cases hstart : Numeral.parseWord start with
      | error cause =>
        have hfails : ¬Passes descriptor .startAddress :=
          mt h.passes_iff.mp (not_denotes_of_error hstart)
        exact FirstFault.later hthree (.later hname (.here hfails))
      | ok m =>
        have hm := Numeral.parseWord_eq_ok_iff.mp hstart
        have hfirst : Passes descriptor .startAddress :=
          h.passes_iff.mpr ⟨_, hm, Nat.le_of_lt_succ m.toNat_lt⟩
        cases hcount : Numeral.parseWord count with
        | error cause =>
          have hfails : ¬Passes descriptor .count :=
            mt h.passes_iff.mp (not_denotes_of_error hcount)
          exact FirstFault.later hthree (.later hname (.later hfirst (.here hfails)))
        | ok n => exact tells_of h hm (Numeral.parseWord_eq_ok_iff.mp hcount)
  · rw [parse_of_not_fields hfields]
    have hfails : ¬Passes descriptor .fieldCount := by
      rintro ⟨function, start, count, h, -⟩
      exact hfields ⟨function, start, count, h⟩
    exact FirstFault.here hfails

theorem parse_eq_ok_iff : parse descriptor = .ok block ↔ Describes descriptor block := by
  have htells := parse_tells descriptor
  constructor
  · intro h
    rw [h] at htells
    exact htells
  · intro h
    -- a descriptor of a block passes all checks, so none of them is the first that fails
    cases hparse : parse descriptor with
    | ok block' =>
      rw [hparse] at htells
      exact congrArg Except.ok (htells.unique h)
    | error fault =>
      rw [hparse] at htells
      exact absurd (h.passes fault) htells.not_passes

theorem parse_eq_error_iff :
    parse descriptor = .error fault ↔ FirstFault descriptor checks fault := by
  have htells := parse_tells descriptor
  constructor
  · intro h
    rw [h] at htells
    exact htells
  · intro h
    cases hparse : parse descriptor with
    | ok block =>
      rw [hparse] at htells
      exact absurd (htells.passes fault) h.not_passes
    | error fault' =>
      rw [hparse] at htells
      exact congrArg Except.error (htells.unique h)

/-! ### What is written of a block -/

/-- A text of printed characters beyond the comma is a field as it stands. -/
theorem field_of_printed {text : List Char} (h : ∀ c ∈ text, 0x2D ≤ c.toNat ∧ c.toNat ≤ 0x7E) :
    ',' ∉ text ∧ Text.Trims text text := by
  constructor
  · intro hcomma
    exact absurd (h _ hcomma).1 (by decide)
  · apply Text.Trims.of_solid
    intro c hc
    obtain ⟨hlow, hhigh⟩ := h c hc
    exact Text.isBlank_of_printed (Nat.le_trans (by decide) hlow) hhigh

theorem toList_descriptor (kind : CacheFunction) (m n : UInt16) :
    (CacheBlock.descriptor kind m n).toList =
      kind.name.toList ++ ',' :: (m.toNat.repr.toList ++ ',' :: n.toNat.repr.toList) := by
  have hcomma : ",".toList = [','] := rfl
  show (kind.name ++ ("," ++ m.toNat.repr ++ "," ++ n.toNat.repr)).toList = _
  simp only [String.toList_append, hcomma, List.append_assoc, List.cons_append, List.nil_append]

theorem describes_descriptor (h : AddressRange.Fits ⟨m, n⟩ kind.perFrame) :
    Describes (CacheBlock.descriptor kind m n).toList ⟨kind, ⟨m, n⟩⟩ := by
  obtain ⟨hcomma, hname⟩ := field_of_printed fun c hc =>
    have hletter := kind.letters_of_mem_name c hc
    ⟨Nat.le_trans (by decide) hletter.1, Nat.le_trans hletter.2 (by decide)⟩
  have hnumeral : ∀ k : Nat, ',' ∉ k.repr.toList ∧ Text.Trims k.repr.toList k.repr.toList := by
    intro k
    apply field_of_printed
    intro c hc
    have hdigit := Numeral.isDigit_iff.mp ((Numeral.digits_repr k).digit c hc)
    exact ⟨Nat.le_trans (by decide) hdigit.1, Nat.le_trans hdigit.2 (by decide)⟩
  refine ⟨_, _, ⟨_, _, _, toList_descriptor kind m n, ?_, hname, (hnumeral _).2, (hnumeral _).2⟩,
    .inl (Numeral.digits_repr _), .inl (Numeral.digits_repr _), h⟩
  exact ⟨hcomma, (hnumeral _).1, (hnumeral _).1⟩

/-! ### What is polled -/

/-- A block can be made of a range if and only if the engine never refuses to ask for it. -/
theorem of_isOk_iff (engine : Engine) : (∃ block, of kind m n = .ok block) ↔
    ∀ history result, (engine.submit (kind.request m n)).Runs history result →
      ∀ cause, result ≠ .error (.badRequest cause) := by
  constructor
  · rintro ⟨block, hblock⟩ history result hruns cause
    have hfits := (of_eq_ok_iff.mp hblock).2
    rw [← kind.toNat_limit] at hfits
    rw [CacheFunction.request_of_fits hfits] at hruns
    have haccepted : Accepted result :=
      (Action.Does.of_runs (Engine.execute_does (CacheFunction.requestOf_sized hfits)) hruns).2.1
    exact haccepted.ne_badRequest cause
  · intro h
    cases hrequest : kind.request m n with
    | error cause =>
      -- the engine refuses without a single call, and that is a run
      rw [hrequest] at h
      exact absurd rfl (h [] _ (.done _) cause)
    | ok request =>
      have hfits := (CacheFunction.request_eq_ok hrequest).2
      rw [kind.toNat_limit] at hfits
      exact ⟨_, of_eq_ok_iff.mpr ⟨rfl, hfits⟩⟩

theorem poll_ne_badRequest {task : PollTask} {index : Nat} {history : List Action.Step}
    {poll : Poll} (hblock : of block.function block.range.start block.range.count = .ok block)
    (hruns : (task.poll index block).Runs history poll) (cause : InvalidRequest) :
    poll.outcome ≠ .error (.badRequest cause) := by
  obtain ⟨first, second, result, rfl, hsubmit, hrest⟩ := Action.runs_bind_iff.mp hruns
  have hresult := (of_isOk_iff task.engine).mp ⟨block, hblock⟩ first result hsubmit cause
  cases result with
  | ok cells =>
    obtain ⟨instant, later, rfl, hpublish⟩ := Action.runs_perform_bind_iff.mp hrest
    obtain ⟨_, last, rfl, hdone⟩ := Action.runs_perform_bind_iff.mp hpublish
    obtain ⟨-, rfl⟩ := Action.runs_pure_iff.mp hdone
    exact fun heq => nomatch heq
  | error error =>
    obtain ⟨_, last, rfl, hdone⟩ := Action.runs_perform_bind_iff.mp hrest
    obtain ⟨-, rfl⟩ := Action.runs_pure_iff.mp hdone
    intro heq
    cases heq
    exact hresult rfl

/-- A poll of a block, with its calls, that was not refused by the engine. -/
def Polled (task : PollTask) (block : CacheBlock) (poll : Poll × List Action.Step) : Prop :=
  (∃ index, (task.poll index block).Runs poll.2 poll.1) ∧
    ∀ cause, poll.1.outcome ≠ .error (.badRequest cause)

/-- A sweep over blocks that can be made polls each of them, and none is refused. -/
theorem sweepFrom_polled {task : PollTask} {index : Nat} {blocks : List CacheBlock}
    {history : List Action.Step}
    (hblocks : ∀ block ∈ blocks,
      of block.function block.range.start block.range.count = .ok block)
    (hruns : (task.sweepFrom index blocks).Runs history ()) :
    ∃ polls, history = polls.flatMap Prod.snd ∧ List.Forall₂ (Polled task) blocks polls := by
  induction blocks generalizing index history with
  | nil =>
    obtain ⟨rfl, -⟩ := Action.runs_pure_iff.mp hruns
    exact ⟨[], rfl, .nil⟩
  | cons block blocks ih =>
    obtain ⟨hblock, hrest⟩ := List.forall_mem_cons.mp hblocks
    rw [PollTask.sweepFrom_cons] at hruns
    obtain ⟨first, second, poll, rfl, hpoll, hsweep⟩ := Action.runs_bind_iff.mp hruns
    obtain ⟨polls, rfl, hpolled⟩ := ih hrest hsweep
    have hfirst : Polled task block (poll, first) :=
      ⟨⟨index, hpoll⟩, poll_ne_badRequest hblock hpoll⟩
    exact ⟨(poll, first) :: polls, rfl, .cons hfirst hpolled⟩

end Descriptors

section Configuration

variable {text : String} {block : CacheBlock} {kind : CacheFunction} {m n : UInt16}

theorem ofDescriptor_eq_ok_iff :
    ofDescriptor text = .ok block ↔ Describes text.toList block := by
  rw [← parse_eq_ok_iff, ofDescriptor, Results.mapError_eq_ok_iff]

theorem ofDescriptor_eq_error_iff {error : ConfigError} : ofDescriptor text = .error error ↔
    ∃ fault, error = .badCacheBlock text fault ∧ FirstFault text.toList checks fault := by
  simp only [← parse_eq_error_iff, ofDescriptor]
  cases parse text.toList with
  | ok block => exact ⟨(nomatch ·), fun ⟨_, _, h⟩ => nomatch h⟩
  | error fault =>
    constructor
    · intro h
      cases h
      exact ⟨fault, rfl, rfl⟩
    · rintro ⟨_, rfl, h⟩
      cases h
      rfl

theorem of_of_ofDescriptor (h : ofDescriptor text = .ok block) :
    of block.function block.range.start block.range.count = .ok block := by
  obtain ⟨start, count, -, -, -, hfits⟩ := ofDescriptor_eq_ok_iff.mp h
  exact of_eq_ok_iff.mpr ⟨rfl, hfits⟩

theorem check_eq_ok_iff : check kind m n = .ok block ↔ of kind m n = .ok block := by
  rw [check, Results.mapError_eq_ok_iff]

example : ofDescriptor " ReadInputStatus , 16, +032 " = .ok ⟨.readInputStatus, ⟨16, 32⟩⟩ := by
  decide +kernel

/-- A descriptor is read if and only if it describes a block, and then that block results; else
the error has the descriptor as it is and the first fault in it. A block can be made of a range if
and only if the engine does not refuse to read the range, so that no block that was read is refused
when it is polled, alone or in a sweep. What is written of a block is read as that block. -/
theorem ofDescriptor_exact :
    (∀ text block, ofDescriptor text = .ok block ↔ Describes text.toList block) ∧
    (∀ text error, ofDescriptor text = .error error ↔
      ∃ fault, error = .badCacheBlock text fault ∧ FirstFault text.toList checks fault) ∧
    (∀ (engine : Engine) kind m n, (∃ block, check kind m n = .ok block) ↔
      ∀ history result, (engine.submit (CacheFunction.request m n kind)).Runs history result →
        ∀ cause, result ≠ .error (.badRequest cause)) ∧
    (∀ text block, ofDescriptor text = .ok block →
      ∀ (task : PollTask) index history poll, (task.poll index block).Runs history poll →
        ∀ cause, poll.outcome ≠ .error (.badRequest cause)) ∧
    (∀ (task : PollTask), (∀ block ∈ task.blocks, ∃ text, ofDescriptor text = .ok block) →
      ∀ history, task.sweep.Runs history () →
        ∃ polls, history = polls.flatMap Prod.snd ∧
          List.Forall₂ (Polled task) task.blocks polls) ∧
    ∀ kind m n block, check kind m n = .ok block →
      ofDescriptor (CacheBlock.descriptor block.function block.range.start block.range.count) =
        .ok block := by
  refine ⟨fun text block => ofDescriptor_eq_ok_iff, fun text error => ofDescriptor_eq_error_iff,
    ?_, ?_, ?_, ?_⟩
  · intro engine kind m n
    simp only [check_eq_ok_iff]
    exact of_isOk_iff engine
  · intro text block h task index history poll hruns
    exact poll_ne_badRequest (of_of_ofDescriptor h) hruns
  · intro task hblocks history hruns
    refine sweepFrom_polled ?_ hruns
    intro block hblock
    obtain ⟨text, htext⟩ := hblocks block hblock
    exact of_of_ofDescriptor htext
  · intro kind m n block h
    obtain ⟨rfl, hfits⟩ := of_eq_ok_iff.mp (check_eq_ok_iff.mp h)
    exact ofDescriptor_eq_ok_iff.mpr (describes_descriptor hfits)

end Configuration

end CacheBlock

end ModbusMaster
