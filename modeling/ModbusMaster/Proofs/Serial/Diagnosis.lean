import ModbusMaster.Proofs.Engine.Outcome
import ModbusMaster.Proofs.Serial.Freshness
import ModbusMaster.Proofs.Serial.Legibility

/-!
The diagnostic log as a record of failures. Whatever a line answers, an operation appends one
entry if it fails after its frame was encoded, and none otherwise; the entry holds the frame and
all bytes that the reads of the operation gave. What is found in the log is therefore what failed.
-/

namespace ModbusMaster

namespace Action

/-- What a call has appended to a log, and to which one. -/
def Step.logged? : Step → Option (String × Serial.LogEntry)
  | ⟨.appendLog path entry, none⟩ => some (path, entry)
  | _ => none

/-- What a history has appended to logs. -/
def logged (history : List Step) : List (String × Serial.LogEntry) :=
  history.filterMap Step.logged?

/-- The answer to a call that appends to a log is that it was done. -/
def Step.Written : Step → Prop
  | ⟨.appendLog _ _, some _⟩ => False
  | _ => True

variable {history : List Step}

theorem logged_append (first second : List Step) :
    logged (first ++ second) = logged first ++ logged second :=
  List.filterMap_append

theorem heard_append (first second : List Step) :
    heard (first ++ second) = heard first ++ heard second :=
  List.flatMap_append

end Action

/-- Calls that append nothing to a log. -/
def Call.Unlogged : Call → Prop
  | .appendLog .. => False
  | _ => True

/-- Calls that neither concern the medium nor append to a log. -/
def Call.Quiet (call : Call) : Prop :=
  call.Mute ∧ call.Unlogged

theorem Action.logged_eq_nil {history : List Action.Step}
    (h : ∀ step ∈ history, step.call.Unlogged) : Action.logged history = [] := by
  apply List.filterMap_eq_nil_iff.mpr
  rintro ⟨call, answer⟩ hstep
  cases call with
  | appendLog => exact (h _ hstep).elim
  | _ => rfl

namespace Serial

namespace Transport

variable {transport : Transport} {frame sent received : Bytes} {direction : Direction}
  {length : Nat} {path : String} {history : List Action.Step}

theorem reportFrame_quiet :
    (transport.reportFrame direction frame).Does Call.Quiet fun _ => True :=
  Action.does_reportUnless ⟨trivial, trivial⟩

theorem reportBytes_quiet :
    (transport.reportBytes direction frame).Does Call.Quiet fun _ => True :=
  Action.does_reportUnless ⟨trivial, trivial⟩

theorem reportBytes_unlogged :
    (transport.reportBytes direction frame).Does Call.Unlogged fun _ => True :=
  reportBytes_quiet.mono_calls fun _ => And.right

theorem writeFrame_unlogged :
    (transport.writeFrame frame).Does Call.Unlogged fun _ => True := by
  unfold writeFrame
  refine Action.does_perform_bind.mpr ⟨trivial, fun flushed => ?_⟩
  cases flushed with
  | error kind => exact trivial
  | ok _ =>
    refine (reportFrame_quiet.mono_calls fun _ => And.right).bind fun _ _ => ?_
    refine reportBytes_unlogged.bind fun _ _ => ?_
    refine Action.does_perform_bind.mpr ⟨trivial, fun written => ?_⟩
    cases written <;> exact trivial

theorem settle_quiet : (transport.settle received length).Does Call.Quiet
    fun outcome => received = outcome.2 := by
  refine reportBytes_quiet.bind fun _ _ => ?_
  split
  next => exact rfl
  next => exact reportFrame_quiet.bind fun _ _ => rfl

theorem settle_unlogged : (transport.settle received length).Does Call.Unlogged fun _ => True :=
  (settle_quiet.mono_calls fun _ => And.right).mono fun _ _ => trivial

theorem settle_collects : (transport.settle received length).Ensures Action.hears
    (fun outcome heard => heard = outcome.2) received :=
  (settle_quiet.mono_calls fun _ => And.left).silent.keeps_heard.mono fun _ _ h => h.2.trans h.1

theorem exchangeFrame_unlogged :
    (transport.exchangeFrame frame length).Does Call.Unlogged fun _ => True := by
  unfold exchangeFrame
  refine writeFrame_unlogged.bind fun written _ => ?_
  cases written with
  | error error => exact trivial
  | ok _ =>
    refine Action.does_perform_bind.mpr ⟨trivial, fun first => ?_⟩
    cases first with
    | error kind => exact trivial
    | ok head =>
      rcases head with _ | ⟨node, _ | ⟨echo, tail⟩⟩
      case nil => exact reportBytes_unlogged.bind fun _ _ => trivial
      case cons.nil => exact reportBytes_unlogged.bind fun _ _ => trivial
      case cons.cons =>
        refine Action.does_perform_bind.mpr ⟨trivial, fun second => ?_⟩
        cases second with
        | error kind => exact trivial
        | ok rest =>
          dsimp only
          split
          next => exact ⟨trivial, fun _ => settle_unlogged⟩
          next => exact settle_unlogged

/-- An exchange collects exactly what its reads give. -/
theorem exchangeFrame_collects : (transport.exchangeFrame frame length).Ensures Action.hears
    (fun outcome heard => heard = outcome.2) [] := by
  unfold exchangeFrame
  refine writeFrame_silent.heard_bind fun written _ => ?_
  cases written with
  | error error => exact rfl
  | ok _ =>
    refine Action.ensures_hears_bind fun first => ?_
    cases first with
    | error kind => exact rfl
    | ok head =>
      rcases head with _ | ⟨node, _ | ⟨echo, tail⟩⟩
      case nil => exact reportBytes_mute.silent.heard_bind fun _ _ => rfl
      case cons.nil => exact reportBytes_mute.silent.heard_bind fun _ _ => rfl
      case cons.cons =>
        refine Action.ensures_hears_bind fun second => ?_
        cases second with
        | error kind => exact List.append_nil _
        | ok rest =>
          -- from here on nothing is read, so what was collected stays what was heard
          dsimp only
          split
          next => exact Action.ensures_silent_bind trivial fun _ => settle_collects
          next => exact settle_collects

/-- What a failure leaves in the log. -/
def failure? {α : Type} (sent received : Bytes) : Except RequestError α → Option LogEntry
  | .ok _ => none
  | .error error => some ⟨error.message, sent, received⟩

theorem logFailure_logged {α : Type} {result : Except RequestError α}
    (hlog : transport.options.logFile = some path)
    (hruns : (transport.logFailure sent received result).Runs history ())
    (hwritten : ∀ step ∈ history, step.Written) :
    Action.logged history = (failure? sent received result).toList.map (path, ·) ∧
      Action.heard history = [] := by
  unfold logFailure at hruns
  rw [hlog] at hruns
  cases result with
  | ok value =>
    obtain ⟨rfl, -⟩ := Action.runs_pure_iff.mp hruns
    exact ⟨rfl, rfl⟩
  | error error =>
    obtain ⟨reason, rest, rfl, hrest⟩ := Action.runs_perform_bind_iff.mp hruns
    cases reason with
    | none =>
      obtain ⟨rfl, -⟩ := Action.runs_pure_iff.mp hrest
      exact ⟨rfl, rfl⟩
    | some reason => exact (hwritten _ List.mem_cons_self).elim

end Transport

/-! ### Operations -/

/-- An operation as it went. -/
structure Done where
  use : Use
  history : List Action.Step
  outcome : Except RequestError Bytes

/-- The frame of an operation, if it can be encoded. -/
def Use.frame : Use → Except InvalidRequest Bytes
  | send unit function payload | exchange unit function payload _ =>
      Frame.Rtu.encode unit function payload

/-- The entry of an operation: there is one if it failed after its frame was encoded. -/
def Done.entry? (done : Done) : Option LogEntry :=
  match done.use.frame, done.outcome with
  | .ok frame, .error error => some ⟨error.message, frame, Action.heard done.history⟩
  | _, _ => none

/-- An operation on a transport with the given options. -/
def Done.Ran (options : Options) (done : Done) : Prop :=
  ∃ before after, before.options = options ∧
    (done.use.on before).Runs done.history (done.outcome, after)

section Entries

variable {use : Use} {history : List Action.Step} {outcome : Except RequestError Bytes}

theorem entry?_of_refused {cause : InvalidRequest} (h : use.frame = .error cause) :
    Done.entry? ⟨use, history, outcome⟩ = none := by
  rw [Done.entry?, h]

theorem entry?_of_encoded {frame : Bytes} (h : use.frame = .ok frame) :
    Done.entry? ⟨use, history, outcome⟩ =
      Transport.failure? frame (Action.heard history) outcome := by
  rw [Done.entry?, h]
  cases outcome <;> rfl

end Entries

namespace Transport

variable {transport after : Transport} {path : String} {history : List Action.Step}
  {unit : UnitId} {function : UInt8} {payload : Bytes} {length : Nat}

/-- What is done with a frame between the two calls for the bus, and what a failure leaves in the
log afterwards. -/
def turn {α : Type} (transport : Transport) (frame : Bytes)
    (work : Action (Except RequestError α × Bytes)) :
    Action (Except RequestError α × Transport) := do
  Action.acquireBus transport.bus
  let (result, received) ← work
  Action.releaseBus transport.bus
  transport.logFailure frame received result
  return (result, transport.after result)

/-- Where the work appends nothing and collects what it reads, the entry is that of its failure. -/
theorem turn_logged {α : Type} {frame : Bytes} {work : Action (Except RequestError α × Bytes)}
    {result : Except RequestError α} (hlog : transport.options.logFile = some path)
    (hunlogged : work.Does Call.Unlogged fun _ => True)
    (hcollects : work.Ensures Action.hears (fun outcome heard => heard = outcome.2) [])
    (hruns : (transport.turn frame work).Runs history (result, after))
    (hwritten : ∀ step ∈ history, step.Written) :
    after.options = transport.options ∧ Action.logged history =
      (failure? frame (Action.heard history) result).toList.map (path, ·) := by
  obtain ⟨⟨⟩, taken, rfl, htaken⟩ := Action.runs_perform_bind_iff.mp hruns
  obtain ⟨first, rest, ⟨_, received⟩, rfl, hfirst, hrest⟩ := Action.runs_bind_iff.mp htaken
  obtain ⟨⟨⟩, closing, rfl, hclosing⟩ := Action.runs_perform_bind_iff.mp hrest
  obtain ⟨last, nothing, _, rfl, hlast, hdone⟩ := Action.runs_bind_iff.mp hclosing
  obtain ⟨rfl, houtcome⟩ := Action.runs_pure_iff.mp hdone
  cases houtcome
  rw [List.append_nil] at hwritten ⊢
  obtain ⟨hlogged, hsilent⟩ := logFailure_logged hlog hlast fun step hstep =>
    hwritten step (.tail _ (List.mem_append_right _ (.tail _ hstep)))
  have hheard : Action.heard (first ++ ⟨.releaseBus transport.bus, ()⟩ :: last) = received := by
    rw [Action.heard_append, hcollects.of_heard hfirst]
    show received ++ Action.heard last = received
    rw [hsilent, List.append_nil]
  have hentries : Action.logged (first ++ ⟨.releaseBus transport.bus, ()⟩ :: last) =
      Action.logged last := by
    rw [Action.logged_append, Action.logged_eq_nil (hunlogged.of_runs hfirst).1]
    rfl
  refine ⟨rfl, (hentries.trans hlogged).trans ?_⟩
  rw [← hheard]
  rfl

theorem exchange_logged {outcome : Except RequestError Bytes}
    (hlog : transport.options.logFile = some path)
    (hruns : (transport.exchange unit function payload length).Runs history (outcome, after))
    (hwritten : ∀ step ∈ history, step.Written) :
    after.options = transport.options ∧ Action.logged history =
      (Done.entry? ⟨.exchange unit function payload length, history, outcome⟩).toList.map
        (path, ·) := by
  unfold exchange at hruns
  cases hframe : (Use.exchange unit function payload length).frame with
  | error cause =>
    rw [show Frame.Rtu.encode unit function payload = .error cause from hframe] at hruns
    obtain ⟨rfl, houtcome⟩ := Action.runs_pure_iff.mp hruns
    cases houtcome
    rw [entry?_of_refused hframe]
    exact ⟨rfl, rfl⟩
  | ok frame =>
    rw [show Frame.Rtu.encode unit function payload = .ok frame from hframe] at hruns
    rw [entry?_of_encoded hframe]
    exact turn_logged hlog exchangeFrame_unlogged exchangeFrame_collects hruns hwritten

theorem send_logged {outcome : Except RequestError Unit}
    (hlog : transport.options.logFile = some path)
    (hruns : (transport.send unit function payload).Runs history (outcome, after))
    (hwritten : ∀ step ∈ history, step.Written) :
    after.options = transport.options ∧ Action.logged history =
      (Done.entry? ⟨.send unit function payload, history, outcome.map fun _ => []⟩).toList.map
        (path, ·) := by
  unfold send at hruns
  cases hframe : (Use.send unit function payload).frame with
  | error cause =>
    rw [show Frame.Rtu.encode unit function payload = .error cause from hframe] at hruns
    obtain ⟨rfl, houtcome⟩ := Action.runs_pure_iff.mp hruns
    cases houtcome
    rw [entry?_of_refused hframe]
    exact ⟨rfl, rfl⟩
  | ok frame =>
    rw [show Frame.Rtu.encode unit function payload = .ok frame from hframe] at hruns
    -- a write collects nothing
    let work : Action (Except RequestError Unit × Bytes) := (·, []) <$> transport.writeFrame frame
    have hturn : (transport.turn frame work).Runs history (outcome, after) := by
      simp only [turn, work, bind_map_left]
      exact hruns
    have hcollects : work.Ensures Action.hears (fun outcome heard => heard = outcome.2) [] :=
      writeFrame_silent.heard_bind fun _ _ => rfl
    have hunlogged : work.Does Call.Unlogged fun _ => True :=
      writeFrame_unlogged.bind fun _ _ => trivial
    obtain ⟨hoptions, hlogged⟩ := turn_logged hlog hunlogged hcollects hturn hwritten
    rw [entry?_of_encoded hframe]
    refine ⟨hoptions, hlogged.trans ?_⟩
    cases outcome <;> rfl

end Transport

/-- One operation, whether it writes only or reads as well. -/
theorem Use.on_logged {use : Use} {transport after : Transport} {path : String}
    {history : List Action.Step} {outcome : Except RequestError Bytes}
    (hlog : transport.options.logFile = some path)
    (hruns : (use.on transport).Runs history (outcome, after))
    (hwritten : ∀ step ∈ history, step.Written) :
    after.options = transport.options ∧
      Action.logged history = (Done.entry? ⟨use, history, outcome⟩).toList.map (path, ·) := by
  cases use with
  | send unit function payload =>
    obtain ⟨first, second, ⟨result, after'⟩, rfl, hsend, hdone⟩ := Action.runs_bind_iff.mp hruns
    obtain ⟨rfl, houtcome⟩ := Action.runs_pure_iff.mp hdone
    cases houtcome
    rw [List.append_nil] at hwritten ⊢
    exact Transport.send_logged hlog hsend hwritten
  | exchange unit function payload length => exact Transport.exchange_logged hlog hruns hwritten

/-- The operations of a run, each with its part of the history. -/
theorem exists_dones {transport : Transport} {path : String} {uses : List Use}
    {history : List Action.Step} {outcomes : List (Except RequestError Bytes × Transport)}
    (hlog : transport.options.logFile = some path)
    (hruns : (Use.onAll transport uses).Runs history outcomes)
    (hwritten : ∀ step ∈ history, step.Written) :
    ∃ dones : List Done,
      dones.map Done.use = uses ∧ dones.map Done.outcome = outcomes.map Prod.fst ∧
      dones.flatMap Done.history = history ∧
      ∀ done ∈ dones, done.Ran transport.options ∧
        Action.logged done.history = done.entry?.toList.map (path, ·) := by
  induction uses generalizing transport history outcomes with
  | nil =>
    obtain ⟨rfl, rfl⟩ := Action.runs_pure_iff.mp hruns
    exact ⟨[], rfl, rfl, rfl, List.forall_mem_nil _⟩
  | cons use uses ih =>
    obtain ⟨first, rest, ⟨outcome, after⟩, rfl, hfirst, hrest⟩ := Action.runs_bind_iff.mp hruns
    obtain ⟨second, nothing, others, rfl, hsecond, hdone⟩ := Action.runs_bind_iff.mp hrest
    obtain ⟨rfl, rfl⟩ := Action.runs_pure_iff.mp hdone
    rw [List.append_nil] at hwritten ⊢
    obtain ⟨hwritten₁, hwritten₂⟩ := List.forall_mem_append.mp hwritten
    obtain ⟨hoptions, hlogged⟩ := use.on_logged hlog hfirst hwritten₁
    -- an operation leaves the options as they are, so the later ones have the same log
    rw [← hoptions] at hlog
    obtain ⟨dones, huses, houtcomes, hhistory, hdones⟩ := ih hlog hsecond hwritten₂
    refine ⟨⟨use, first, outcome⟩ :: dones, ?_, ?_, ?_, List.forall_mem_cons.mpr ⟨?_, ?_⟩⟩
    · rw [List.map_cons, huses]
    · rw [List.map_cons, houtcomes]
      rfl
    · rw [List.flatMap_cons, hhistory]
    · exact ⟨⟨transport, after, rfl, hfirst⟩, hlogged⟩
    · rw [hoptions] at hdones
      exact hdones

theorem logged_flatMap {path : String} {dones : List Done}
    (h : ∀ done ∈ dones, Action.logged done.history = done.entry?.toList.map (path, ·)) :
    Action.logged (dones.flatMap Done.history) = (dones.filterMap Done.entry?).map (path, ·) := by
  induction dones with
  | nil => rfl
  | cons done dones ih =>
    obtain ⟨hdone, hdones⟩ := List.forall_mem_cons.mp h
    rw [List.flatMap_cons, Action.logged_append, hdone, ih hdones]
    cases hentry : done.entry? with
    | none => rw [List.filterMap_cons_none hentry]; rfl
    | some entry => rw [List.filterMap_cons_some hentry]; rfl

theorem Done.oneLine_reason {done : Done} {entry : LogEntry} (h : done.entry? = some entry) :
    OneLine entry.reason := by
  unfold entry? at h
  split at h
  next =>
    cases h
    exact RequestError.message_oneLine _
  next => cases h

/-- The log of a transport that could always be written holds the failed operations in their
order: the error of each, its frame and the bytes that its reads gave. A reader finds all of this
in the lines again, whatever the times of day are. -/
theorem log_faithful {transport : Transport} {path : String} {uses : List Use}
    {history : List Action.Step} {outcomes : List (Except RequestError Bytes × Transport)}
    (hlog : transport.options.logFile = some path)
    (hruns : (Use.onAll transport uses).Runs history outcomes)
    (hwritten : ∀ step ∈ history, step.Written) :
    ∃ dones : List Done,
      (dones.map Done.use = uses ∧ dones.map Done.outcome = outcomes.map Prod.fst ∧
        dones.flatMap Done.history = history) ∧
      (∀ done ∈ dones, done.Ran transport.options ∧
        Action.logged done.history = done.entry?.toList.map (path, ·)) ∧
      Action.logged history = (dones.filterMap Done.entry?).map (path, ·) ∧
      ∀ stamped : List (LogEntry × String), stamped.map Prod.fst = dones.filterMap Done.entry? →
        (∀ stamp ∈ stamped, OneLine stamp.2) →
        Text.lines (LogEntry.texts stamped) =
            stamped.flatMap (fun stamp => stamp.1.lines stamp.2) ∧
          ∀ stamp ∈ stamped, LogEntry.Tells (stamp.1.lines stamp.2) stamp.1.reason stamp.1.sent
            stamp.1.received := by
  obtain ⟨dones, huses, houtcomes, rfl, hdones⟩ := exists_dones hlog hruns hwritten
  have hlogged := logged_flatMap fun done hdone => (hdones done hdone).2
  refine ⟨dones, ⟨huses, houtcomes, rfl⟩, hdones, hlogged, ?_⟩
  intro stamped hstamped htimes
  refine ⟨LogEntry.lines_texts fun stamp hstamp => ⟨?_, htimes stamp hstamp⟩,
    fun stamp _ => stamp.1.lines_tell stamp.2⟩
  have hentry : stamp.1 ∈ dones.filterMap Done.entry? := by
    rw [← hstamped]
    exact List.mem_map_of_mem hstamp
  obtain ⟨done, -, hdone⟩ := List.mem_filterMap.mp hentry
  exact Done.oneLine_reason hdone

/-- Of a reply only its first three bytes come in; then the line cannot even be flushed. -/
theorem log_faithful_failures :
    let transport : Transport := { line := 0, bus := 0, options := { logFile := some "log" } }
    let uses : List Use := [.exchange ⟨0x2A⟩ 3 [0, 4, 0, 1] 4, .send ⟨0x2A⟩ 6 [0, 4, 0, 9]]
    ∃ history outcomes, ∃ dones : List Done,
      (Use.onAll transport uses).Runs history outcomes ∧
      dones.map Done.use = uses ∧ dones.filterMap Done.entry? =
        [⟨(RequestError.badFrame (.tooShort 7 3)).message,
            [0x2A, 3, 0, 4, 0, 1, 0xC3, 0xD0], [0x2A, 3, 2]⟩,
          ⟨(RequestError.io .brokenPipe).message, [0x2A, 6, 0, 4, 0, 9, 0x0E, 0x16], []⟩] := by
  intro transport uses
  let first : Bytes := [0x2A, 3, 0, 4, 0, 1, 0xC3, 0xD0]
  let second : Bytes := [0x2A, 6, 0, 4, 0, 9, 0x0E, 0x16]
  have hfirst : Frame.Rtu.encode ⟨0x2A⟩ 3 [0, 4, 0, 1] = .ok first := by decide +kernel
  have hsecond : Frame.Rtu.encode ⟨0x2A⟩ 6 [0, 4, 0, 9] = .ok second := by decide +kernel
  let short : LogEntry := ⟨(RequestError.badFrame (.tooShort 7 3)).message, first, [0x2A, 3, 2]⟩
  let mute : LogEntry := ⟨(RequestError.io .brokenPipe).message, second, []⟩
  let history : List Action.Step :=
    [⟨.acquireBus 0, ()⟩, ⟨.flush 0, .ok ()⟩, ⟨.write 0 first, .ok ()⟩,
      ⟨.read 0 2, .ok [0x2A, 3]⟩, ⟨.read 0 5, .ok [2]⟩,
      ⟨.report (.missingCharacters 5 1), ()⟩, ⟨.releaseBus 0, ()⟩,
      ⟨.appendLog "log" short, none⟩, ⟨.acquireBus 0, ()⟩, ⟨.flush 0, .error .brokenPipe⟩,
      ⟨.releaseBus 0, ()⟩, ⟨.appendLog "log" mute, none⟩]
  obtain ⟨outcomes, hruns⟩ : ∃ outcomes, (Use.onAll transport uses).Runs history outcomes := by
    simp only [uses, Use.onAll, Use.on, Transport.exchange, Transport.send, hfirst, hsecond]
    exact ⟨_, .ask (.ask (.ask (.ask (.ask (.ask (.ask (.ask
      (.ask (.ask (.ask (.ask (.done _))))))))))))⟩
  have hwritten : ∀ step ∈ history, step.Written := by
    simp only [history, List.forall_mem_cons]
    simp [Action.Step.Written]
  obtain ⟨dones, ⟨huses, -, -⟩, -, hlogged, -⟩ := log_faithful rfl hruns hwritten
  refine ⟨history, outcomes, dones, hruns, huses, ?_⟩
  have hentries : (dones.filterMap Done.entry?).map ("log", ·) = [short, mute].map ("log", ·) :=
    hlogged.symm
  exact List.map_injective_iff.mpr (Prod.mk_right_injective "log") hentries

/-- A reply of 65536 bytes is waited for and comes in: the last line of the entry stands at an
offset of five digits. -/
theorem log_wide_offset :
    let transport : Transport := { line := 0, bus := 0, options := { logFile := some "log" } }
    ∃ history error after entry,
      (transport.exchange ⟨0x2A⟩ 3 [0, 4, 0, 1] 65536).Runs history (.error error, after) ∧
      (∀ step ∈ history, step.Written) ∧ Action.logged history = [("log", entry)] ∧
      ∀ time, ((entry.lines time).filterMap (LogEntry.shown? "Recv"))[4096]? =
        some (['1', '0', '0', '0', '0'], [0, 0, 0]) := by
  intro transport
  let frame : Bytes := [0x2A, 3, 0, 4, 0, 1, 0xC3, 0xD0]
  have hframe : Frame.Rtu.encode ⟨0x2A⟩ 3 [0, 4, 0, 1] = .ok frame := by decide +kernel
  -- the reply is kept under a name: nothing of it but its length and its end is looked at
  obtain ⟨rest, hrest⟩ : ∃ rest : Bytes, rest = List.replicate 65537 0 := ⟨_, rfl⟩
  have hlength : rest.length = 65537 := by rw [hrest, List.length_replicate]
  let reply : Bytes := 0x2A :: 3 :: rest
  let error : RequestError := .badFrame (.frameTooBig 65539 512)
  let entry : LogEntry := ⟨error.message, frame, reply⟩
  let history : List Action.Step :=
    [⟨.acquireBus 0, ()⟩, ⟨.flush 0, .ok ()⟩, ⟨.write 0 frame, .ok ()⟩,
      ⟨.read 0 2, .ok [0x2A, 3]⟩, ⟨.read 0 65537, .ok rest⟩, ⟨.releaseBus 0, ()⟩,
      ⟨.appendLog "log" entry, none⟩]
  have hexchange : (transport.exchangeFrame frame 65536).Runs
      [⟨.flush 0, .ok ()⟩, ⟨.write 0 frame, .ok ()⟩, ⟨.read 0 2, .ok [0x2A, 3]⟩,
        ⟨.read 0 65537, .ok rest⟩] (.error error, reply) := by
    refine .ask (.ask (.ask (.ask ?_)))
    have henough : ¬rest.length < Transport.remaining 3 65536 := by rw [hlength]; decide
    show (if rest.length < Transport.remaining 3 65536 then _
      else transport.settle reply 65536).Runs _ _
    rw [if_neg henough]
    exact .done _
  let failed : Except RequestError Bytes := .error error
  have hruns : (transport.exchange ⟨0x2A⟩ 3 [0, 4, 0, 1] 65536).Runs history
      (failed, transport.after failed) := by
    unfold Transport.exchange
    rw [hframe]
    refine Action.runs_perform_bind_iff.mpr ⟨(), _, rfl, Action.runs_bind_iff.mpr ?_⟩
    refine ⟨_, [⟨.releaseBus 0, ()⟩, ⟨.appendLog "log" entry, none⟩], _, rfl, hexchange, ?_⟩
    exact .ask (.ask (.done _))
  have hwritten : ∀ step ∈ history, step.Written := by
    simp only [history, List.forall_mem_cons]
    simp [Action.Step.Written]
  have hrow : (LogEntry.rows reply)[4096]? = some ((Hex.padded 4 65536).toList, [0, 0, 0]) := by
    have hcount : (reply.length + 16 - 1) / 16 = 4097 := by
      simp only [reply, List.length_cons, hlength]
    have hlast : (reply.drop (4096 * 16)).take 16 = [0, 0, 0] := by
      simp only [reply, hrest, List.drop_succ_cons, List.drop_replicate]
      rfl
    rw [LogEntry.rows, List.getElem?_mapIdx, chunks, hcount, List.getElem?_map,
      List.getElem?_range (by decide), Option.map_some, hlast]
    rfl
  have hoffset : (Hex.padded 4 65536).toList = ['1', '0', '0', '0', '0'] := by decide +kernel
  refine ⟨history, error, _, entry, hruns, hwritten, rfl, fun time => ?_⟩
  rw [LogEntry.filterMap_shown?_received, ← hoffset]
  exact hrow

end Serial

end ModbusMaster
