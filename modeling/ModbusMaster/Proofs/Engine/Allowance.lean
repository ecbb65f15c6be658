import ModbusMaster.Proofs.Engine.Outcome

/-!
How often a request is put on the medium. An allowance says how many times it may still be put
there and what was read since it last was. `Allowance.Next` answers a call that puts bytes on the
medium only if they are the frame of the request, if it is allowed once more, and if no refusal
was read; an exchange obeys it on either medium, whatever is read and whatever fails.
-/

namespace ModbusMaster

namespace Call

/-- The bytes that a call puts on the medium. -/
def put? : Call → Option Bytes
  | .write _ bytes | .transmit _ bytes _ => some bytes
  | _ => none

/-- A transport that is given back is for the protocol. -/
def Returns (protocol : Protocol) : Call → Prop
  | .releaseTransport _ transport => transport.protocol = protocol
  | _ => True

end Call

namespace Action

/-- An answer as a medium for the protocol gives it: a transport is for the protocol, and a read
of a serial line gives no more bytes than it asks for. -/
def Step.Plausible (protocol : Protocol) : Step → Prop
  | ⟨.acquireTransport _, transport⟩ => Transport.protocol transport = protocol
  | ⟨.read _ count, .ok bytes⟩ => List.length (α := UInt8) bytes ≤ count
  | _ => True

/-- What a history puts on the medium. -/
def puts (history : List Step) : List Bytes :=
  history.filterMap (·.call.put?)

/-- What was read since something was last put on the medium, after something was read before. -/
def heardAfter (heard : Bytes) (history : List Step) : Bytes :=
  history.foldl (fun heard step => if step.call.put?.isSome then [] else heard ++ step.bytes) heard

variable {protocol : Protocol} {step : Step}

theorem plausible_of_mute (h : step.call.Mute) : step.Plausible protocol := by
  obtain ⟨call, answer⟩ := step
  cases call with
  | acquireTransport | read => exact h.elim
  | _ => trivial

end Action

namespace Call.Mute

variable {call : Call}

theorem put?_eq (h : call.Mute) : call.put? = none := by
  cases call with
  | write | transmit => exact h.elim
  | _ => rfl

theorem returns (h : call.Mute) (protocol : Protocol) : call.Returns protocol := by
  cases call with
  | releaseTransport => exact h.elim
  | _ => trivial

end Call.Mute

namespace Action

theorem puts_append (first second : List Step) :
    puts (first ++ second) = puts first ++ puts second :=
  List.filterMap_append

theorem Does.puts_eq_nil {α : Type} {action : Action α} {post : α → Prop} {history : List Step}
    {result : α} (h : action.Does Call.Mute post) (hruns : action.Runs history result) :
    puts history = [] := by
  apply List.filterMap_eq_nil_iff.mpr
  intro step hstep
  exact ((h.of_runs hruns).1 step hstep).put?_eq

end Action

namespace Frame

/-- Bytes that begin as a reply with a refusing echo and an exception code. -/
def Refuses (protocol : Protocol) (raw : Bytes) : Prop :=
  ∃ echo code rest, raw.drop (front protocol) = echo :: code :: rest ∧ refuses echo = true

variable {protocol : Protocol} {raw : Bytes}

theorem not_refuses_of_short (h : raw.length ≤ front protocol + 1) : ¬ Refuses protocol raw := by
  rintro ⟨echo, code, rest, hdrop, -⟩
  have hlength := congrArg List.length hdrop
  simp only [List.length_drop, List.length_cons] at hlength
  omega

theorem Refuses.append (h : Refuses protocol raw) (more : Bytes) :
    Refuses protocol (raw ++ more) := by
  obtain ⟨echo, code, rest, hdrop, hecho⟩ := h
  refine ⟨echo, code, rest ++ more, ?_, hecho⟩
  have hfront : front protocol ≤ raw.length := by
    have hlength := congrArg List.length hdrop
    simp only [List.length_drop, List.length_cons] at hlength
    omega
  rw [List.drop_append_of_le_length hfront, hdrop]
  rfl

/-- The decoder takes a refusal for what it is, before it looks at anything else. -/
theorem Refuses.decode_eq (h : Refuses protocol raw) (length : Nat) (check : CrcCheck) :
    ∃ code, decode protocol raw length check = .error (.exception code) := by
  obtain ⟨echo, code, rest, hdrop, hecho⟩ := h
  refine ⟨ExceptionCode.ofByte code, ?_⟩
  cases protocol with
  | rtu =>
    cases raw with
    | nil => cases hdrop
    | cons unit raw =>
      cases (hdrop : raw = echo :: code :: rest)
      show (if refuses echo then _ else _) = _
      rw [if_pos hecho]
  | tcp =>
    have hlong : ¬ raw.length < Tcp.minReplyLength := by
      have hlength := congrArg List.length hdrop
      simp only [List.length_drop, List.length_cons, front, Tcp.headerLength] at hlength
      simp only [Tcp.minReplyLength]
      omega
    show Tcp.decode raw length = _
    unfold Tcp.decode
    rw [if_neg hlong, show raw.drop Tcp.headerLength = echo :: code :: rest from hdrop]
    exact if_pos hecho

end Frame

/-- What may still be done on the medium. -/
structure Allowance where
  /-- How many more times the request may be put there. -/
  left : Nat
  /-- What was read since it last was. -/
  heard : Bytes

namespace Allowance

/-- The calls that are allowed, with plausible answers, and what is allowed after them. -/
inductive Next (protocol : Protocol) (encoded : Except InvalidRequest Bytes) :
    Environment Allowance where
  | put {left : Nat} {heard frame : Bytes} {step : Action.Step} (hput : step.call.put? = some frame)
      (hframe : encoded = .ok frame) (hopen : ¬ Frame.Refuses protocol heard) :
      Next protocol encoded ⟨left + 1, heard⟩ step ⟨left, []⟩
  | keep {before : Allowance} {step : Action.Step} (hput : step.call.put? = none)
      (hreturns : step.call.Returns protocol) (hanswers : step.Plausible protocol) :
      Next protocol encoded before step ⟨before.left, before.heard ++ step.bytes⟩

/-- What an exchange leaves: some of the allowance, and no refusal that it did not end in. -/
structure Spared {α : Type} (protocol : Protocol) (spare : Nat) (result : Except RequestError α)
    (after : Allowance) : Prop where
  left : spare ≤ after.left
  final : Frame.Refuses protocol after.heard → ∃ code, result = .error (.exception code)

variable {α β : Type} {protocol : Protocol} {encoded : Except InvalidRequest Bytes} {spare : Nat}
  {before after : Allowance} {result : Except RequestError α}

theorem Spared.of_open (hleft : spare ≤ after.left) (hopen : ¬ Frame.Refuses protocol after.heard) :
    Spared protocol spare result after :=
  ⟨hleft, fun hrefuses => absurd hrefuses hopen⟩

/-- Whatever else is made of the answer, a refusal remains one. -/
theorem Spared.view {result' : Except RequestError β} (h : Spared protocol spare result after)
    (hsame : ∀ code, result = .error (.exception code) → result' = .error (.exception code)) :
    Spared protocol spare result' after := by
  refine ⟨h.left, fun hrefuses => ?_⟩
  obtain ⟨code, hcode⟩ := h.final hrefuses
  exact ⟨code, hsame code hcode⟩

end Allowance

/-! ### Allowed histories -/

/-- What a history comes to that puts a request on the medium and reads what comes back. -/
structure Action.Repeats (protocol : Protocol) (encoded : Except InvalidRequest Bytes) (limit : Nat)
    (history : List Action.Step) : Prop where
  limited : (puts history).length ≤ limit
  /-- Nothing but the request is put on the medium. -/
  requests : ∀ bytes ∈ puts history, encoded = .ok bytes
  returns : ∀ step ∈ history, step.call.Returns protocol
  /-- Once a refusal was read, nothing is put on the medium any more. -/
  refused : ∀ first second, history = first ++ second →
    Frame.Refuses protocol (heardAfter [] first) → puts second = []

namespace Allowance

variable {protocol : Protocol} {encoded : Except InvalidRequest Bytes} {before after : Allowance}
  {history : List Action.Step}

theorem puts_cons_of_put {step : Action.Step} {frame : Bytes} (h : step.call.put? = some frame) :
    Action.puts (step :: history) = frame :: Action.puts history :=
  List.filterMap_cons_some h

theorem puts_cons_of_keep {step : Action.Step} (h : step.call.put? = none) :
    Action.puts (step :: history) = Action.puts history :=
  List.filterMap_cons_none h

theorem length_puts_le (h : (Next protocol encoded).Allows before history after) :
    (Action.puts history).length ≤ before.left := by
  induction h with
  | nil state => exact Nat.zero_le _
  | cons answer rest ih =>
    cases answer with
    | put hput =>
      rw [puts_cons_of_put hput]
      exact Nat.succ_le_succ ih
    | keep hput =>
      rw [puts_cons_of_keep hput]
      exact ih

theorem eq_of_mem_puts (h : (Next protocol encoded).Allows before history after) :
    ∀ bytes ∈ Action.puts history, encoded = .ok bytes := by
  induction h with
  | nil state => exact List.forall_mem_nil _
  | cons answer rest ih =>
    cases answer with
    | put hput hframe =>
      rw [puts_cons_of_put hput]
      exact List.forall_mem_cons.mpr ⟨hframe, ih⟩
    | keep hput =>
      rw [puts_cons_of_keep hput]
      exact ih

theorem forall_returns (h : (Next protocol encoded).Allows before history after) :
    ∀ step ∈ history, step.call.Returns protocol := by
  induction h with
  | nil state => exact List.forall_mem_nil _
  | @cons _ _ _ step _ answer rest ih =>
    refine List.forall_mem_cons.mpr ⟨?_, ih⟩
    cases answer with
    | put hput =>
      cases hcall : step.call with
      | releaseTransport =>
        rw [hcall] at hput
        cases hput
      | _ => exact trivial
    | keep _ hreturns => exact hreturns

theorem heard_eq (h : (Next protocol encoded).Allows before history after) :
    after.heard = Action.heardAfter before.heard history := by
  induction h with
  | nil state => rfl
  | cons answer rest ih =>
    rw [ih, Action.heardAfter, Action.heardAfter, List.foldl_cons]
    cases answer with
    | put hput => rw [hput]; rfl
    | keep hput => rw [hput]; rfl

/-- More bytes do not take a refusal back, so it forbids all that would follow. -/
theorem puts_eq_nil_of_refuses (hrefuses : Frame.Refuses protocol before.heard)
    (h : (Next protocol encoded).Allows before history after) : Action.puts history = [] := by
  induction h with
  | nil state => rfl
  | cons answer rest ih =>
    cases answer with
    | put _ _ hopen => exact absurd hrefuses hopen
    | keep hput =>
      rw [puts_cons_of_keep hput]
      exact ih (hrefuses.append _)

theorem repeats_of_allows {limit : Nat}
    (h : (Next protocol encoded).Allows ⟨limit, []⟩ history after) :
    Action.Repeats protocol encoded limit history where
  limited := length_puts_le h
  requests := eq_of_mem_puts h
  returns := forall_returns h
  refused := by
    rintro first second rfl hrefuses
    obtain ⟨middle, hfirst, hsecond⟩ := h.split
    rw [← heard_eq hfirst] at hrefuses
    exact puts_eq_nil_of_refuses hrefuses hsecond

/-- An action that obeys is allowed whatever is answered, if it is plausible. -/
theorem allows_of_obeys {α : Type} {action : Action α} {post : α → Allowance → Prop} {result : α}
    (h : action.Obeys (Next protocol encoded) post before)
    (hruns : action.Runs history result) (hanswers : ∀ step ∈ history, step.Plausible protocol) :
    ∃ after, (Next protocol encoded).Allows before history after ∧ post result after := by
  induction hruns generalizing before with
  | done result => exact ⟨before, .nil before, h⟩
  | @ask call next answer history result rest ih =>
    obtain ⟨hanswer, hrest⟩ := List.forall_mem_cons.mp hanswers
    obtain ⟨⟨other, otherAfter, hother⟩, hnext⟩ := h
    have hallowed : ∃ middle, Next protocol encoded before ⟨call, answer⟩ middle := by
      cases hother with
      | put hput hframe hopen => exact ⟨_, .put hput hframe hopen⟩
      | keep hput hreturns => exact ⟨_, .keep hput hreturns hanswer⟩
    obtain ⟨middle, hmiddle⟩ := hallowed
    obtain ⟨after, hafter, hpost⟩ := ih (hnext answer middle hmiddle) hrest
    exact ⟨after, .cons hmiddle hafter, hpost⟩

end Allowance

namespace Action

open Allowance (Next)

variable {α β : Type} {protocol : Protocol} {encoded : Except InvalidRequest Bytes}
  {before : Allowance} {post : β → Allowance → Prop}

/-- What is neither put on the medium nor read from it leaves the allowance as it is. -/
theorem obeys_mute_bind {first : Action α} {next : α → Action β} {middle : α → Prop}
    (h : first.Does Call.Mute middle)
    (hnext : ∀ result, middle result → (next result).Obeys (Next protocol encoded) post before) :
    (first >>= next).Obeys (Next protocol encoded) post before := by
  have hstep : ∀ (call : Call) (answer : call.Answer) (after : Allowance), call.Mute →
      Next protocol encoded before ⟨call, answer⟩ after → after = before := by
    intro call answer after hmute hafter
    cases hafter with
    | put hput => rw [hmute.put?_eq] at hput; cases hput
    | keep =>
      have hbytes : (Step.mk call answer).bytes = [] := bytes_of_silent hmute.silent
      rw [hbytes, List.append_nil]
  have hfirst : first.Obeys (Next protocol encoded)
      (fun result after => middle result ∧ after = before) before := by
    apply h.obeys
    · intro call hmute
      obtain ⟨answer⟩ := nonempty_answer call
      have hkeep : Next protocol encoded before ⟨call, answer⟩ _ :=
        .keep hmute.put?_eq (hmute.returns protocol) (plausible_of_mute hmute)
      have hsame := hstep call answer _ hmute hkeep
      rw [hsame] at hkeep
      exact ⟨answer, hkeep⟩
    · exact fun call answer after hmute hafter => hstep call answer after hmute hafter
  apply hfirst.bind
  rintro result after ⟨hmiddle, rfl⟩
  exact hnext result hmiddle

theorem obeys_call_bind {call : Call} {next : call.Answer → Action β} (h : call.Mute)
    (hnext : ∀ answer, (next answer).Obeys (Next protocol encoded) post before) :
    (perform call >>= next).Obeys (Next protocol encoded) post before :=
  obeys_mute_bind (does_perform h fun _ => trivial) fun answer _ => hnext answer

theorem obeys_put_bind {call : Call} {next : call.Answer → Action β} {frame : Bytes} {spare : Nat}
    (hput : call.put? = some frame) (hframe : encoded = .ok frame)
    (hopen : ¬ Frame.Refuses protocol before.heard) (hleft : spare + 1 ≤ before.left)
    (hnext : ∀ answer left, spare ≤ left →
      (next answer).Obeys (Next protocol encoded) post ⟨left, []⟩) :
    (perform call >>= next).Obeys (Next protocol encoded) post before := by
  obtain ⟨_ | left, heard⟩ := before
  · exact absurd hleft (Nat.not_succ_le_zero spare)
  · obtain ⟨answer⟩ := nonempty_answer call
    apply obeys_perform_bind.mpr
    refine ⟨⟨answer, _, .put hput hframe hopen⟩, ?_⟩
    intro answer after hafter
    cases hafter with
    | put => exact hnext answer left (Nat.le_of_succ_le_succ hleft)
    | keep hnone => rw [hput] at hnone; cases hnone

/-- A call that puts nothing on the medium, and that can be answered plausibly. -/
theorem obeys_keep_bind {call : Call} {next : call.Answer → Action β} (hput : call.put? = none)
    (hreturns : call.Returns protocol) (hsome : ∃ answer, Step.Plausible protocol ⟨call, answer⟩)
    (hnext : ∀ answer, Step.Plausible protocol ⟨call, answer⟩ →
      (next answer).Obeys (Next protocol encoded) post
        ⟨before.left, before.heard ++ (Step.mk call answer).bytes⟩) :
    (perform call >>= next).Obeys (Next protocol encoded) post before := by
  obtain ⟨answer, hanswer⟩ := hsome
  apply obeys_perform_bind.mpr
  refine ⟨⟨answer, _, .keep hput hreturns hanswer⟩, ?_⟩
  intro answer after hafter
  cases hafter with
  | put hsome => rw [hput] at hsome; cases hsome
  | keep _ _ hanswers => exact hnext answer hanswers

/-- A call that reads nothing either leaves the allowance as it is. -/
theorem obeys_silent_bind {call : Call} {next : call.Answer → Action β} (hput : call.put? = none)
    (hsilent : call.Silent) (hreturns : call.Returns protocol)
    (hsome : ∃ answer, Step.Plausible protocol ⟨call, answer⟩)
    (hnext : ∀ answer, Step.Plausible protocol ⟨call, answer⟩ →
      (next answer).Obeys (Next protocol encoded) post before) :
    (perform call >>= next).Obeys (Next protocol encoded) post before := by
  refine obeys_keep_bind hput hreturns hsome fun answer hanswer => ?_
  have hbytes : (Step.mk call answer).bytes = [] := bytes_of_silent hsilent
  rw [hbytes, List.append_nil]
  exact hnext answer hanswer

theorem obeys_read_bind {line : Handle} {count : Nat} {next : Except IoError Bytes → Action β}
    (hnext : ∀ answer : Except IoError Bytes, Step.Plausible protocol ⟨.read line count, answer⟩ →
      (next answer).Obeys (Next protocol encoded) post
        ⟨before.left, before.heard ++ Step.bytes ⟨.read line count, answer⟩⟩) :
    (read line count >>= next).Obeys (Next protocol encoded) post before := by
  have hsome : Step.Plausible protocol ⟨.read line count, Except.ok []⟩ := Nat.zero_le count
  exact obeys_keep_bind rfl trivial ⟨_, hsome⟩ hnext

theorem obeys_receive_bind {stream : Handle} {count : Nat} {limit : Duration}
    {next : Except Interruption Bytes → Action β}
    (hnext : ∀ answer : Except Interruption Bytes,
      (next answer).Obeys (Next protocol encoded) post
        ⟨before.left, before.heard ++ Step.bytes ⟨.receive stream count limit, answer⟩⟩) :
    (receive stream count limit >>= next).Obeys (Next protocol encoded) post before := by
  have hsome : Step.Plausible protocol ⟨.receive stream count limit, Except.ok []⟩ := trivial
  exact obeys_keep_bind rfl trivial ⟨_, hsome⟩ fun answer _ => hnext answer

end Action

namespace Serial.Transport

open Allowance

variable {transport : Transport} {frame payload received : Bytes} {unit : UnitId} {function : UInt8}
  {length spare : Nat} {encoded : Except InvalidRequest Bytes} {before : Allowance}

theorem writeFrame_spares (hframe : encoded = .ok frame)
    (hopen : ¬ Frame.Refuses .rtu before.heard) (hleft : spare + 1 ≤ before.left) :
    (transport.writeFrame frame).Obeys (Next .rtu encoded)
      (fun result after => spare ≤ after.left ∧ ¬ Frame.Refuses .rtu after.heard ∧
        (result = .ok () → after.heard = [])) before := by
  unfold writeFrame
  refine Action.obeys_call_bind trivial fun flushed => ?_
  cases flushed with
  | error kind => exact ⟨Nat.le_of_succ_le hleft, hopen, fun h => by cases h⟩
  | ok _ =>
    apply Action.obeys_mute_bind reportFrame_mute
    intro _ _
    apply Action.obeys_mute_bind reportBytes_mute
    intro _ _
    apply Action.obeys_put_bind rfl hframe hopen hleft
    intro written left hspare
    have hnothing : ¬ Frame.Refuses .rtu [] := Frame.not_refuses_of_short (Nat.zero_le _)
    cases written with
    | error kind => exact ⟨hspare, hnothing, fun _ => rfl⟩
    | ok _ => exact ⟨hspare, hnothing, fun _ => rfl⟩

theorem settle_spares (hleft : spare ≤ before.left) (hheard : before.heard = received) :
    (transport.settle received length).Obeys (Next .rtu encoded)
      (fun outcome after => Spared .rtu spare outcome.1 after) before := by
  have hdecoded : Spared .rtu spare
      (Frame.Rtu.decode received length transport.options.crcCheck) before := by
    refine ⟨hleft, fun hrefuses => ?_⟩
    rw [hheard] at hrefuses
    exact hrefuses.decode_eq length transport.options.crcCheck
  apply Action.obeys_mute_bind reportBytes_mute
  intro _ _
  split
  next error heq =>
    rw [heq] at hdecoded
    exact hdecoded
  next reply heq =>
    rw [heq] at hdecoded
    apply Action.obeys_mute_bind reportFrame_mute
    intro _ _
    exact hdecoded

theorem exchangeFrame_spares (hframe : encoded = .ok frame)
    (hopen : ¬ Frame.Refuses .rtu before.heard) (hleft : spare + 1 ≤ before.left) :
    (transport.exchangeFrame frame length).Obeys (Next .rtu encoded)
      (fun outcome after => Spared .rtu spare outcome.1 after) before := by
  unfold exchangeFrame
  apply (writeFrame_spares hframe hopen hleft).bind
  rintro written ⟨left, heard⟩ ⟨hspare, hopen, hwritten⟩
  cases written with
  | error error => exact .of_open hspare hopen
  | ok _ =>
    cases hwritten rfl
    apply Action.obeys_read_bind
    intro first hfirst
    cases first with
    | error kind => exact .of_open hspare (Frame.not_refuses_of_short (Nat.zero_le _))
    | ok head =>
      -- the first read ends with the echo, so it cannot make a refusal yet
      have hhead : ¬ Frame.Refuses .rtu head := Frame.not_refuses_of_short hfirst
      rcases head with _ | ⟨node, _ | ⟨echo, tail⟩⟩
      case nil =>
        apply Action.obeys_mute_bind reportBytes_mute
        intro _ _
        exact .of_open hspare hhead
      case cons.nil =>
        apply Action.obeys_mute_bind reportBytes_mute
        intro _ _
        exact .of_open hspare hhead
      case cons.cons =>
        apply Action.obeys_read_bind
        intro second _
        cases second with
        | error kind =>
          refine .of_open hspare ?_
          show ¬ Frame.Refuses .rtu (node :: echo :: tail ++ [])
          rw [List.append_nil]
          exact hhead
        | ok rest =>
          dsimp only
          split
          next =>
            refine Action.obeys_call_bind trivial fun _ => ?_
            exact settle_spares hspare rfl
          next => exact settle_spares hspare rfl

/-- A refused frame is never put on the line. -/
theorem exchange_spares (hopen : ¬ Frame.Refuses .rtu before.heard)
    (hleft : spare + 1 ≤ before.left) :
    (transport.exchange unit function payload length).Obeys
      (Next .rtu (Frame.encode .rtu unit function payload))
      (fun outcome after => Spared .rtu spare outcome.1 after) before := by
  unfold exchange
  split
  next => exact .of_open (Nat.le_of_succ_le hleft) hopen
  next frame hframe =>
    refine Action.obeys_call_bind trivial fun _ => ?_
    apply (exchangeFrame_spares hframe hopen hleft).bind
    rintro ⟨result, received⟩ after hspared
    refine Action.obeys_call_bind trivial fun _ => ?_
    apply Action.obeys_mute_bind logFailure_mute
    intro _ _
    exact hspared

theorem send_spares (hopen : ¬ Frame.Refuses .rtu before.heard) (hleft : spare + 1 ≤ before.left) :
    (transport.send unit function payload).Obeys
      (Next .rtu (Frame.encode .rtu unit function payload))
      (fun outcome after => Spared .rtu spare outcome.1 after) before := by
  unfold send
  split
  next => exact .of_open (Nat.le_of_succ_le hleft) hopen
  next frame hframe =>
    refine Action.obeys_call_bind trivial fun _ => ?_
    apply (writeFrame_spares hframe hopen hleft).bind
    rintro result after ⟨hspare, hopen, -⟩
    refine Action.obeys_call_bind trivial fun _ => ?_
    apply Action.obeys_mute_bind logFailure_mute
    intro _ _
    exact .of_open hspare hopen

end Serial.Transport

namespace Tcp.Transport

open Allowance

variable {transport : Transport} {frame payload raw : Bytes} {unit : UnitId} {function : UInt8}
  {length spare : Nat} {encoded : Except InvalidRequest Bytes} {before : Allowance}

theorem writeFrame_spares (hframe : encoded = .ok frame)
    (hopen : ¬ Frame.Refuses .tcp before.heard) (hleft : spare + 1 ≤ before.left) :
    (transport.writeFrame frame).Obeys (Next .tcp encoded)
      (fun outcome after => spare ≤ after.left ∧ ¬ Frame.Refuses .tcp after.heard ∧
        (outcome.1 = .ok () → after.heard = [])) before := by
  unfold writeFrame
  split
  next => exact ⟨Nat.le_of_succ_le hleft, hopen, fun h => by cases h⟩
  next =>
    apply Action.obeys_mute_bind reportFrame_mute
    intro _ _
    apply Action.obeys_mute_bind reportBytes_mute
    intro _ _
    apply Action.obeys_put_bind rfl hframe hopen hleft
    intro written left hspare
    have hnothing : ¬ Frame.Refuses .tcp [] := Frame.not_refuses_of_short (Nat.zero_le _)
    cases written with
    | ok _ => exact ⟨hspare, hnothing, fun _ => rfl⟩
    | error interruption =>
      apply Action.obeys_mute_bind disconnect_mute
      intro _ _
      exact ⟨hspare, hnothing, fun _ => rfl⟩

/-- After a round there is as much left as before it but for one, and all that was heard is what
was read in it. -/
def RoundSpares (spare : Nat) (outcome : Except RequestError Bytes × Transport)
    (after : Allowance) : Prop :=
  spare ≤ after.left ∧
    match outcome.1 with
    | .ok raw => after.heard = raw
    | .error _ => ¬ Frame.Refuses .tcp after.heard

theorem readOnce_spares (hleft : spare ≤ before.left) (hheard : before.heard = []) :
    transport.readOnce.Obeys (Next .tcp encoded) (RoundSpares spare) before := by
  obtain ⟨left, heard⟩ := before
  cases hheard
  have hnothing : ¬ Frame.Refuses .tcp [] := Frame.not_refuses_of_short (Nat.zero_le _)
  unfold readOnce
  split
  next => exact ⟨hleft, hnothing⟩
  next =>
    apply Action.obeys_receive_bind
    intro outcome
    cases outcome with
    | ok raw =>
      apply Action.obeys_mute_bind reportBytes_mute
      intro _ _
      exact ⟨hleft, rfl⟩
    | error interruption =>
      apply Action.obeys_mute_bind disconnect_mute
      intro _ _
      exact ⟨hleft, hnothing⟩

theorem attempt_spares (hframe : encoded = .ok frame)
    (hopen : ¬ Frame.Refuses .tcp before.heard) (hleft : spare + 1 ≤ before.left) :
    (transport.attempt frame).Obeys (Next .tcp encoded) (RoundSpares spare) before := by
  unfold attempt
  apply Action.obeys_mute_bind connect_mute
  rintro ⟨connection, connected⟩ _
  cases connection with
  | error error => exact ⟨Nat.le_of_succ_le hleft, hopen⟩
  | ok _ =>
    apply (writeFrame_spares hframe hopen hleft).bind
    rintro ⟨written, transport'⟩ after ⟨hspare, hopen, hwritten⟩
    cases written with
    | error error => exact ⟨hspare, hopen⟩
    | ok _ => exact readOnce_spares hspare (hwritten rfl)

theorem acceptReply_spares (hleft : spare ≤ before.left) (hheard : before.heard = raw) :
    (transport.acceptReply raw length).Obeys (Next .tcp encoded)
      (fun outcome after => Spared .tcp spare outcome.1 after) before := by
  rw [← bind_pure (transport.acceptReply raw length)]
  apply Action.obeys_mute_bind acceptReply_mute
  rintro ⟨result, transport'⟩ hresult
  refine ⟨hleft, fun hrefuses => ?_⟩
  rw [hheard] at hrefuses
  rw [hresult]
  exact hrefuses.decode_eq length .strict

theorem exchangeFrame_spares (hframe : encoded = .ok frame)
    (hopen : ¬ Frame.Refuses .tcp before.heard) (hleft : spare + 2 ≤ before.left) :
    (transport.exchangeFrame frame length).Obeys (Next .tcp encoded)
      (fun outcome after => Spared .tcp spare outcome.1 after) before := by
  unfold exchangeFrame
  apply (attempt_spares hframe hopen hleft).bind
  rintro ⟨error | _ | ⟨byte, rest⟩, first⟩ after ⟨hspare, hheard⟩
  case error => exact .of_open (Nat.le_of_succ_le hspare) hheard
  case ok.cons => exact acceptReply_spares (Nat.le_of_succ_le hspare) hheard
  case ok.nil =>
    -- nothing was read, so the request may be put on the connection once more
    have hnothing : ¬ Frame.Refuses .tcp after.heard := by
      rw [show after.heard = [] from hheard]
      exact Frame.not_refuses_of_short (Nat.zero_le _)
    apply Action.obeys_mute_bind disconnect_mute
    intro closed _
    refine Action.obeys_call_bind trivial fun _ => ?_
    apply Action.obeys_mute_bind awaitReconnect_mute
    intro _ _
    apply (attempt_spares hframe hnothing hspare).bind
    rintro ⟨error | _ | ⟨byte, rest⟩, second⟩ after ⟨hspare, hheard⟩
    case error => exact .of_open hspare hheard
    case ok.cons => exact acceptReply_spares hspare hheard
    case ok.nil =>
      apply Action.obeys_mute_bind disconnect_mute
      intro _ _
      refine .of_open hspare ?_
      rw [show after.heard = [] from hheard]
      exact Frame.not_refuses_of_short (Nat.zero_le _)

theorem exchange_spares (hopen : ¬ Frame.Refuses .tcp before.heard)
    (hleft : spare + 2 ≤ before.left) :
    (transport.exchange unit function payload length).Obeys
      (Next .tcp (Frame.encode .tcp unit function payload))
      (fun outcome after => Spared .tcp spare outcome.1 after) before := by
  unfold exchange
  split
  next => exact .of_open (by omega) hopen
  next frame hframe =>
    apply (exchangeFrame_spares hframe hopen hleft).bind
    exact fun _ _ hspared => hspared

theorem send_spares (hopen : ¬ Frame.Refuses .tcp before.heard) (hleft : spare + 2 ≤ before.left) :
    (transport.send unit function payload).Obeys
      (Next .tcp (Frame.encode .tcp unit function payload))
      (fun outcome after => Spared .tcp spare outcome.1 after) before := by
  unfold send
  split
  next => exact .of_open (by omega) hopen
  next frame hframe =>
    apply Action.obeys_mute_bind connect_mute
    rintro ⟨connection, connected⟩ _
    cases connection with
    | error error => exact .of_open (by omega) hopen
    | ok _ =>
      have hleft : spare + 1 ≤ before.left := Nat.le_of_succ_le hleft
      apply (writeFrame_spares hframe hopen hleft).bind
      rintro ⟨written, transport'⟩ after ⟨hspare, hopen, -⟩
      exact .of_open hspare hopen

end Tcp.Transport

/-- How often one exchange may put its request on the medium: over TCP again if the peer has
closed the connection instead of answering. -/
def Protocol.rounds : Protocol → Nat
  | .rtu => 1
  | .tcp => 2

namespace Transport

open Allowance

variable {transport : Transport} {unit : UnitId} {function : UInt8} {payload : Bytes}
  {length spare : Nat} {before : Allowance}

theorem exchange_spares (hopen : ¬ Frame.Refuses transport.protocol before.heard)
    (hleft : spare + transport.protocol.rounds ≤ before.left) :
    (transport.exchange unit function payload length).Obeys
      (Next transport.protocol (Frame.encode transport.protocol unit function payload))
      (fun outcome after => Spared transport.protocol spare outcome.1 after ∧
        outcome.2.protocol = transport.protocol) before := by
  cases transport with
  | rtu serial =>
    apply (Serial.Transport.exchange_spares hopen hleft).bind
    exact fun _ _ hspared => ⟨hspared, rfl⟩
  | tcp net =>
    apply (Tcp.Transport.exchange_spares hopen hleft).bind
    exact fun _ _ hspared => ⟨hspared, rfl⟩

theorem send_spares (hopen : ¬ Frame.Refuses transport.protocol before.heard)
    (hleft : spare + transport.protocol.rounds ≤ before.left) :
    (transport.send unit function payload).Obeys
      (Next transport.protocol (Frame.encode transport.protocol unit function payload))
      (fun outcome after => Spared transport.protocol spare outcome.1 after ∧
        outcome.2.protocol = transport.protocol) before := by
  cases transport with
  | rtu serial =>
    apply (Serial.Transport.send_spares hopen hleft).bind
    exact fun _ _ hspared => ⟨hspared, rfl⟩
  | tcp net =>
    apply (Tcp.Transport.send_spares hopen hleft).bind
    exact fun _ _ hspared => ⟨hspared, rfl⟩

end Transport

end ModbusMaster
