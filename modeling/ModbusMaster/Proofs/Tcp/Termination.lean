import ModbusMaster.Proofs.Engine.Exchange
import ModbusMaster.Proofs.Tcp.Round

/-!
How a use of a TCP transport comes to its end. It does so within a bounded number of calls, and it
returns unless something overflows: an exchange panics when the end of a reply is past every index,
or when the next attempt to connect is due later than the clock can show. `Transport.Overflows` is
each cause, and `Transport.Stops` lists where it can arise, with what is seen of the exchange until
then.
-/

namespace ModbusMaster.Tcp.Transport

variable {transport : Transport} {frame : Bytes} {watch : Watch}

/-- The last attempt of a transport is one that the transport before knew of or that was seen
since. -/
def Recorded (transport : Transport) (watch : Watch) (transport' : Transport) (after : Watch) :
    Prop :=
  ∃ seen, after.traffic = watch.traffic ++ seen ∧ ∀ last, transport'.lastAttempt = some last →
    transport.lastAttempt = some last ∨ ∃ outcome, .attempt last outcome ∈ seen

theorem Recorded.refl (transport : Transport) (watch : Watch) :
    transport.Recorded watch transport watch :=
  ⟨[], (List.append_nil _).symm, fun _ => .inl⟩

/-- More was seen, and the last attempt is still the same one. -/
theorem Recorded.append {transport' transport'' : Transport} {after after' : Watch}
    {more : List Traffic} (h : transport.Recorded watch transport' after)
    (hmore : after'.traffic = after.traffic ++ more)
    (hlast : transport''.lastAttempt = transport'.lastAttempt) :
    transport.Recorded watch transport'' after' := by
  obtain ⟨seen, htraffic, hstarted⟩ := h
  refine ⟨seen ++ more, ?_, fun last heq => ?_⟩
  · rw [hmore, htraffic, List.append_assoc]
  · rw [hlast] at heq
    apply (hstarted last heq).imp_right
    intro hattempt
    obtain ⟨outcome, hmem⟩ := hattempt
    exact ⟨outcome, List.mem_append_left more hmem⟩

theorem Recorded.kept (transport : Transport) (watch : Watch) :
    Kept (transport.Recorded watch) where
  later := fun h _ htraffic => h.append (htraffic.trans (List.append_nil _).symm) rfl
  seen := fun h _ _ htraffic _ _ => h.append htraffic rfl
  closed := fun h _ _ _ htraffic => h.append htraffic rfl
  attempted := by
    intro before after' _ _ h _ _ _ start outcome _ _ htraffic hafter
    obtain ⟨seen, heq, -⟩ := h
    subst hafter
    refine ⟨seen ++ [.attempt start outcome], ?_, fun last hlast => .inr ⟨outcome, ?_⟩⟩
    · rw [htraffic, heq, List.append_assoc]
    · cases hlast
      exact List.mem_append_right seen List.mem_cons_self

/-- What is seen of an exchange that panics, and the cause: in the first round or in the second,
once a reply has been read, or before the wait between the rounds. -/
inductive Stops (transport : Transport) (now : Instant) (frame : Bytes) (length : Nat) :
    List Traffic → Panic → Prop where
  | once {seen : List Traffic} {raw : Bytes} {first : Transport}
      (round : transport.Round now frame seen (.ok raw) first)
      (unindexed : ¬ Frame.Tcp.Indexed raw length) :
      Stops transport now frame length seen .indexOverflow
  | waiting {seen : List Traffic} {first : Transport} {stream : Handle} {last : Instant}
      (round : transport.Round now frame seen (.ok []) first)
      (stream_eq : first.stream = some stream)
      (started : transport.lastAttempt = some last ∨ ∃ outcome, .attempt last outcome ∈ seen)
      (late : Instant.limit ≤ last + transport.settings.reconnectInterval) :
      Stops transport now frame length (seen ++ [.close stream]) .instantOverflow
  | again {seen seen' : List Traffic} {raw : Bytes} {first second : Transport} {stream : Handle}
      {later : Instant} (round : transport.Round now frame seen (.ok []) first)
      (stream_eq : first.stream = some stream)
      (round' : first.dropped.Round later frame seen' (.ok raw) second)
      (unindexed : ¬ Frame.Tcp.Indexed raw length) :
      Stops transport now frame length (seen ++ .close stream :: seen') .indexOverflow

end ModbusMaster.Tcp.Transport
