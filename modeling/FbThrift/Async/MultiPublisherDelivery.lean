import FbThrift.Async.MultiPublisher

/-!
# What the streams of a multi-publisher receive

A stream gets messages in two ways: as they are, while it is pending, and encoded, once its encoder
has been provided.  Its own queue is switched before the map is, so a message may also be published
as it is to a stream that encodes already.  In every case what was published to the stream is, in
order, what was pushed to its queue, what `establishStream` holds, what waits to be encoded, and
what is still to be published.
-/

namespace FbThrift.ServerStreamMultiPublisher

open ServerPublisherStream (Message Sent StreamElementEncoder EncodeOrQueue)

variable {E τ π ε : Type}

/-! ## The invariant -/

/-- The entry of the map that a stream belongs to. -/
def Establisher.key (encodeFn : E) : Establisher τ ε → Option E
  | provided => some encodeFn
  | _ => kPendingStreamsKey

/-- The queue of messages that are not encoded is closed. -/
def Establisher.Closed : Establisher τ ε → Prop
  | made | provided => True
  | _ => False

namespace Publishing

/-- The streams that are still to be published to, but for the one whose message is encoded. -/
def rest : Publishing E τ π ε → List (Option E × Nat)
  | idle => []
  | publishAll _ streams _ => streams
  | push _ _ _ streams _ => streams

/-- What is still to be published to a stream. -/
def held (c : Encoders E τ π ε) (i : Nat) : Publishing E τ π ε → List (Sent π ε)
  | idle => []
  | publishAll message streams _ => if i ∈ streams.map Prod.snd then [c.encode i message] else []
  | push sent stream message streams _ =>
    if i = stream then [sent]
    else if i ∈ streams.map Prod.snd then [c.encode i message] else []

end Publishing

/-- What was published to a stream was pushed to its queue or is on its way. -/
structure Carried (c : Encoders E τ π ε) (i : Nat) (stream : PublisherStream τ π ε)
    (held : List (Sent π ε)) : Prop where
  carried : stream.queue ++
      (stream.establisher.held ++ stream.encodeOrQueue.getMessages).map (c.encode i) ++ held =
    stream.published.map (c.encode i)
  closed : stream.encodeOrQueue = .closed ↔ stream.establisher.Closed

/-- Messages are pushed to a queue directly only when nothing is left to encode. -/
structure Ordered (c : Encoders E τ π ε) (streams : Nat → PublisherStream τ π ε)
    (publishing : Publishing E τ π ε) : Prop where
  nodup : (publishing.rest.map Prod.snd).Nodup
  provided : ∀ encode i, (some encode, i) ∈ publishing.rest →
    encode = c.ofStream i ∧ (streams i).establisher = .provided
  pushes : ∀ sent i message rest locked, publishing = .push sent i message rest locked →
    i ∉ rest.map Prod.snd ∧ sent = c.encode i message ∧ (streams i).encodeOrQueue = .closed

/-- The invariant of all runs. -/
structure Consistent (c : Encoders E τ π ε) (s : State E τ π ε) : Prop where
  carried : ∀ i, Carried c i (s.streams i) (s.publishing.held c i)
  mapped : ∀ key i, i ∈ s.encodeToStreams key →
    s.Live i ∧ key = (s.streams i).establisher.key (c.ofStream i)
  live : s.completed = false → ∀ i, s.Live i →
    i ∈ s.encodeToStreams ((s.streams i).establisher.key (c.ofStream i))
  fresh : ∀ i, s.counter ≤ i → s.streams i = .new τ π ε
  ordered : Ordered c s.streams s.publishing

variable {c : Encoders E τ π ε} {s : State E τ π ε} {i : Nat} {stream : PublisherStream τ π ε}

theorem Consistent.initial : Consistent c (State.initial E τ π ε) where
  carried _ := ⟨rfl, nofun, nofun⟩
  mapped _ _ inside := absurd inside (Finset.notMem_empty _)
  live _ _ live := absurd live.1 (Nat.not_lt_zero _)
  fresh _ _ := rfl
  ordered := ⟨.nil, nofun, nofun⟩

/-- A queue that is closed has no messages, and `establishStream` holds none. -/
theorem Carried.nothingWaits {held : List (Sent π ε)} (carried : Carried c i stream held)
    (closed : stream.encodeOrQueue = .closed) :
    stream.establisher.held ++ stream.encodeOrQueue.getMessages = [] := by
  have done := carried.closed.mp closed
  rw [closed]
  cases establisher : stream.establisher with
  | made => rfl
  | provided => rfl
  | _ => exact absurd done (by rw [establisher]; exact id)

theorem Carried.push {held : List (Sent π ε)} {sent : Sent π ε}
    (carried : Carried c i stream (sent :: held)) (closed : stream.encodeOrQueue = .closed) :
    Carried c i (stream.push sent) held where
  carried := by
    have whole := carried.carried
    rw [carried.nothingWaits closed, List.map_nil, List.append_nil] at whole
    change stream.queue ++ [sent] ++
      (stream.establisher.held ++ stream.encodeOrQueue.getMessages).map (c.encode i) ++ held = _
    rw [carried.nothingWaits closed, List.map_nil, List.append_nil, List.append_assoc]
    exact whole
  closed := carried.closed

/-! ## One stream goes on -/

theorem carried_setStream {k : Nat → List (Sent π ε)}
    (carried : ∀ j, j ≠ i → Carried c j (s.streams j) (k j)) (new : Carried c i stream (k i))
    (j : Nat) : Carried c j ((s.setStream i stream).streams j) (k j) := by
  change Carried c j (Function.update s.streams i stream j) (k j)
  rcases eq_or_ne j i with rfl | other
  · rw [Function.update_self]
    exact new
  · rw [Function.update_of_ne other]
    exact carried j other

theorem fresh_setStream (consistent : Consistent c s) (added : i < s.counter) {j : Nat}
    (beyond : s.counter ≤ j) : (s.setStream i stream).streams j = .new τ π ε := by
  have other : j ≠ i := fun same => absurd added (Nat.not_lt.mpr (same ▸ beyond))
  exact (Function.update_of_ne other _ _).trans (consistent.fresh j beyond)

/-- A stream goes on, and the publishing thread with it, without a change of the map. -/
theorem Consistent.setStream (consistent : Consistent c s) {p : Publishing E τ π ε}
    (added : i < s.counter) (removed : stream.removed = (s.streams i).removed)
    (key : stream.establisher.key (c.ofStream i) = (s.streams i).establisher.key (c.ofStream i))
    (carried : Carried c i stream (p.held c i))
    (others : ∀ j, j ≠ i → p.held c j = s.publishing.held c j)
    (ordered : Ordered c (s.setStream i stream).streams p) :
    Consistent c { s.setStream i stream with publishing := p } where
  carried := carried_setStream (k := fun j => p.held c j)
    (fun j other => by rw [others j other]; exact consistent.carried j) carried
  mapped := by
    intro key' j inside
    have before := consistent.mapped key' j inside
    change (j < s.counter ∧ (Function.update s.streams i stream j).removed = false) ∧
      key' = (Function.update s.streams i stream j).establisher.key (c.ofStream j)
    rcases eq_or_ne j i with rfl | other
    · rw [Function.update_self, removed, key]
      exact before
    · rw [Function.update_of_ne other]
      exact before
  live := by
    intro running j live
    change j < s.counter ∧ (Function.update s.streams i stream j).removed = false at live
    change j ∈ s.encodeToStreams
      ((Function.update s.streams i stream j).establisher.key (c.ofStream j))
    rcases eq_or_ne j i with rfl | other
    · rw [Function.update_self, removed] at live
      rw [Function.update_self, key]
      exact consistent.live running j live
    · rw [Function.update_of_ne other] at live ⊢
      exact consistent.live running j live
  fresh _ beyond := fresh_setStream consistent added beyond
  ordered := ordered

/-- The publishing thread finds the streams as they were, but for a queue that is switched or
grows. -/
theorem Ordered.setStream {publishing : Publishing E τ π ε}
    (ordered : Ordered c s.streams publishing)
    (provided : (s.streams i).establisher = .provided → stream.establisher = .provided)
    (closed : (s.streams i).encodeOrQueue = .closed → stream.encodeOrQueue = .closed) :
    Ordered c (s.setStream i stream).streams publishing where
  nodup := ordered.nodup
  provided := by
    intro encode j inside
    obtain ⟨same, done⟩ := ordered.provided encode j inside
    refine ⟨same, ?_⟩
    change (Function.update s.streams i stream j).establisher = .provided
    rcases eq_or_ne j i with rfl | other
    · rw [Function.update_self]
      exact provided done
    · rwa [Function.update_of_ne other]
  pushes := by
    intro sent j message rest locked pushing
    obtain ⟨alone, same, done⟩ := ordered.pushes sent j message rest locked pushing
    refine ⟨alone, same, ?_⟩
    change (Function.update s.streams i stream j).encodeOrQueue = .closed
    rcases eq_or_ne j i with rfl | other
    · rw [Function.update_self]
      exact closed done
    · rwa [Function.update_of_ne other]

/-! ## Establishing -/

/-- An access of `establishStream` keeps what is on its way in order. -/
theorem Carried.establish {held : List (Sent π ε)} (carried : Carried c i stream held) :
    Carried c i (stream.establish (c.encode i)) held := by
  obtain ⟨whole, closed⟩ := carried
  have opened {messages : List (Message τ ε)} : ¬ EncodeOrQueue.messages messages = .closed := nofun
  have still (same : stream.establish (c.encode i) = stream) :
      Carried c i (stream.establish (c.encode i)) held := same.symm ▸ ⟨whole, closed⟩
  cases establisher : stream.establisher with
  | exchange =>
    rw [PublisherStream.establish, establisher]
    rw [establisher] at whole closed
    cases messages : stream.encodeOrQueue.getMessages with
    | nil =>
      rw [messages] at whole
      exact ⟨whole, iff_of_false opened id⟩
    | cons message rest =>
      rw [messages] at whole
      refine ⟨?_, iff_of_false opened id⟩
      change stream.queue ++ ((message :: rest) ++ []).map (c.encode i) ++ held = _
      rw [List.append_nil]
      exact whole
  | close =>
    rw [PublisherStream.establish, establisher]
    rw [establisher] at whole closed
    dsimp only
    split
    · rename_i empty
      rw [empty] at whole
      exact ⟨whole, iff_of_true rfl trivial⟩
    · exact ⟨whole, closed⟩
  | push messages =>
    rw [PublisherStream.establish, establisher]
    rw [establisher] at whole closed
    cases messages with
    | nil => exact ⟨whole, closed⟩
    | cons message messages =>
      refine ⟨Eq.trans ?_ whole, closed⟩
      change stream.queue ++ [c.encode i message] ++
        (messages ++ stream.encodeOrQueue.getMessages).map (c.encode i) ++ held = _
      rw [List.append_assoc stream.queue]
      rfl
  | _ => exact still (by rw [PublisherStream.establish, establisher])

theorem establish_removed (encode : Message τ ε → Sent π ε) :
    (stream.establish encode).removed = stream.removed := by
  unfold PublisherStream.establish
  split
  · split <;> rfl
  · split <;> rfl
  · rfl
  · rfl
  · rfl

theorem establish_key (encode : Message τ ε → Sent π ε) (encodeFn : E) :
    (stream.establish encode).establisher.key encodeFn = stream.establisher.key encodeFn := by
  unfold PublisherStream.establish
  cases establisher : stream.establisher with
  | exchange => dsimp only; split <;> rfl
  | close => dsimp only; split <;> rfl
  | push messages => cases messages <;> rfl
  | idle => exact congrArg _ establisher
  | made => exact congrArg _ establisher
  | provided => exact congrArg _ establisher

theorem establish_of_closed {held : List (Sent π ε)} (carried : Carried c i stream held)
    (closed : stream.encodeOrQueue = .closed) :
    stream.establish (c.encode i) = stream := by
  have done := carried.closed.mp closed
  unfold PublisherStream.establish
  cases establisher : stream.establisher with
  | made => rfl
  | provided => rfl
  | _ => exact absurd done (by rw [establisher]; exact id)

theorem establish_of_provided (encode : Message τ ε → Sent π ε)
    (provided : stream.establisher = .provided) :
    (stream.establish encode).establisher = .provided := by
  unfold PublisherStream.establish
  rw [provided]
  exact provided

theorem Consistent.establish (consistent : Consistent c s) (i : Nat) :
    Consistent c (s.setStream i ((s.streams i).establish (c.encode i))) := by
  by_cases added : i < s.counter
  · have carried := consistent.carried i
    refine consistent.setStream (p := s.publishing) added (establish_removed _)
      (establish_key _ _) carried.establish (fun _ _ => rfl)
      (consistent.ordered.setStream (establish_of_provided _) fun closed => ?_)
    rw [establish_of_closed carried closed]
    exact closed
  · have fresh := consistent.fresh i (Nat.not_lt.mp added)
    have same : (s.streams i).establish (c.encode i) = s.streams i := by
      rw [fresh]
      rfl
    have whole : s.setStream i ((s.streams i).establish (c.encode i)) = s := by
      rw [same, State.setStream, Function.update_eq_self]
    rwa [whole]

theorem Consistent.establishStream (consistent : Consistent c s) (added : i < s.counter)
    (idle : (s.streams i).establisher = .idle) :
    Consistent c (s.setStream i { s.streams i with establisher := .exchange }) := by
  obtain ⟨whole, closed⟩ := consistent.carried i
  rw [idle] at whole closed
  refine consistent.setStream (p := s.publishing) added rfl ?_ ⟨whole, closed⟩
    (fun _ _ => rfl) (consistent.ordered.setStream (fun provided => ?_) id)
  · rw [idle]
    rfl
  · rw [idle] at provided
    cases provided

/-! ## Publishing -/

theorem held_publishAll_cons {message : Message τ ε} {key : Option E} {j : Nat}
    {streams : List (Option E × Nat)} {locked : Bool} (other : i ≠ j) :
    (Publishing.publishAll message ((key, j) :: streams) locked).held c i =
      (Publishing.publishAll message streams locked).held c i := by
  have same : i ∈ ((key, j) :: streams).map Prod.snd ↔ i ∈ streams.map Prod.snd := by
    rw [List.map_cons, List.mem_cons, or_iff_right other]
  unfold Publishing.held
  dsimp only
  rw [if_congr same rfl rfl]

theorem Ordered.tail {streams : Nat → PublisherStream τ π ε} {message : Message τ ε}
    {head : Option E × Nat} {rest : List (Option E × Nat)} {locked : Bool}
    (ordered : Ordered c streams (.publishAll message (head :: rest) locked)) :
    Ordered c streams (.publishAll message rest locked) where
  nodup := (List.nodup_cons.mp ordered.nodup).2
  provided encode i inside := ordered.provided encode i (List.mem_cons_of_mem _ inside)
  pushes := nofun

theorem Consistent.publish (consistent : Consistent c s) : Consistent c (s.publish c) := by
  have ordered := consistent.ordered
  have added {j : Nat} {held : List (Sent π ε)} {sent : Sent π ε}
      (holds : s.publishing.held c j = sent :: held) : j < s.counter := by
    by_contra beyond
    have fresh := consistent.fresh j (Nat.not_lt.mp beyond)
    have whole := (consistent.carried j).carried
    rw [fresh, holds] at whole
    cases whole
  unfold State.publish
  split
  · exact consistent
  · rename_i publishing
    rw [publishing] at ordered
    refine { consistent with carried := fun j => ?_, ordered := ⟨.nil, nofun, nofun⟩ }
    have same : s.publishing.held c j = [] := by
      rw [publishing]
      rfl
    change Carried c j (s.streams j) []
    rw [← same]
    exact consistent.carried j
  · rename_i message j rest locked publishing
    rw [publishing] at ordered
    have alone : j ∉ rest.map Prod.snd := (List.nodup_cons.mp ordered.nodup).1
    have holds : s.publishing.held c j = [c.encode j message] := by
      rw [publishing]
      exact if_pos List.mem_cons_self
    have none : (Publishing.publishAll message rest locked).held c j = [] := if_neg alone
    have carried := consistent.carried j
    have others (k : Nat) (other : k ≠ j) :
        (Publishing.publishAll message rest locked).held c k = s.publishing.held c k := by
      rw [publishing, held_publishAll_cons other]
    split
    · rename_i queue open_
      obtain ⟨whole, closed⟩ := carried
      rw [holds, open_] at whole
      rw [open_] at closed
      refine consistent.setStream (added holds) rfl rfl ⟨?_, ?_⟩ others
        (ordered.tail.setStream id fun same => ?_)
      · change (s.streams j).queue ++ ((s.streams j).establisher.held ++
          (queue ++ [message])).map (c.encode j) ++
            (Publishing.publishAll message rest locked).held c j = _
        rw [none, List.append_nil, ← List.append_assoc, List.map_append, ← List.append_assoc]
        exact whole
      · refine iff_of_false nofun fun done => ?_
        cases closed.mpr done
      · rw [open_] at same
        cases same
    · rename_i closed
      refine { consistent with carried := fun k => ?_, ordered := ⟨?_, ?_, ?_⟩ }
      · rcases eq_or_ne k j with rfl | other
        · have same : (Publishing.push (c.encode k message) k message rest locked).held c k =
              s.publishing.held c k := by
            rw [holds]
            exact if_pos rfl
          exact same ▸ carried
        · have same : (Publishing.push (c.encode j message) j message rest locked).held c k =
              s.publishing.held c k := by
            rw [← others k other]
            exact if_neg other
          exact same ▸ consistent.carried k
      · exact (List.nodup_cons.mp ordered.nodup).2
      · exact fun encode k inside => ordered.provided encode k (List.mem_cons_of_mem _ inside)
      · rintro sent k message' rest' locked' same
        cases same
        exact ⟨alone, rfl, closed⟩
  · rename_i message encode j rest locked publishing
    rw [publishing] at ordered
    obtain ⟨rfl, provided⟩ := ordered.provided encode j List.mem_cons_self
    have alone : j ∉ rest.map Prod.snd := (List.nodup_cons.mp ordered.nodup).1
    have holds : s.publishing.held c j = [c.encode j message] := by
      rw [publishing]
      exact if_pos List.mem_cons_self
    have none : (Publishing.publishAll message rest locked).held c j = [] := if_neg alone
    have carried := consistent.carried j
    have closed : (s.streams j).encodeOrQueue = .closed :=
      carried.closed.mpr (provided ▸ trivial)
    rw [holds] at carried
    refine consistent.setStream (added holds) rfl rfl (none ▸ carried.push closed) ?_
      (ordered.tail.setStream id id)
    intro k other
    rw [publishing, held_publishAll_cons other]
  · rename_i sent j message rest locked publishing
    rw [publishing] at ordered
    obtain ⟨alone, same, closed⟩ := ordered.pushes sent j message rest locked rfl
    have holds : s.publishing.held c j = [sent] := by
      rw [publishing]
      exact if_pos rfl
    have none : (Publishing.publishAll message rest locked).held c j = [] := if_neg alone
    have carried := consistent.carried j
    rw [holds] at carried
    refine consistent.setStream (added holds) rfl rfl (none ▸ carried.push closed) ?_
      (Ordered.setStream ⟨ordered.nodup, ordered.provided, nofun⟩ id id)
    intro k other
    rw [publishing]
    exact (if_neg other).symm

/-! ## The start of `next` and `complete` -/

theorem record_removed (message : Message τ ε) (i : Nat) :
    ((s.record message).streams i).removed = (s.streams i).removed := by
  unfold State.record
  dsimp only
  split <;> rfl

theorem record_establisher (message : Message τ ε) (i : Nat) :
    ((s.record message).streams i).establisher = (s.streams i).establisher := by
  unfold State.record
  dsimp only
  split <;> rfl

theorem record_live (message : Message τ ε) (i : Nat) : (s.record message).Live i ↔ s.Live i := by
  unfold State.Live
  rw [record_removed]
  exact Iff.rfl

section Start

variable {message : Message τ ε} {order : List (Option E × Nat)} {locked : Bool}

theorem Consistent.mem_order (consistent : Consistent c s) (running : s.completed = false)
    (iterates : Iterates order s.encodeToStreams) (i : Nat) :
    i ∈ order.map Prod.snd ↔ s.Live i := by
  rw [List.mem_map]
  constructor
  · rintro ⟨⟨key, j⟩, inside, rfl⟩
    exact (consistent.mapped key j ((iterates.2 key j).mp inside)).1
  · intro live
    exact ⟨_, (iterates.2 _ i).mpr (consistent.live running i live), rfl⟩

theorem Consistent.carried_start (consistent : Consistent c s) (idle : s.publishing = .idle)
    (running : s.completed = false) (iterates : Iterates order s.encodeToStreams) (i : Nat) :
    Carried c i ((s.record message).streams i)
      ((Publishing.publishAll message order locked).held c i) := by
  obtain ⟨whole, closed⟩ := consistent.carried i
  rw [idle] at whole
  change _ ++ [] = _ at whole
  rw [List.append_nil] at whole
  unfold State.record Publishing.held
  dsimp only
  rw [if_congr (consistent.mem_order running iterates i) rfl rfl]
  split
  · refine ⟨?_, closed⟩
    dsimp only
    rw [whole, List.map_append]
    rfl
  · refine ⟨?_, closed⟩
    rw [List.append_nil]
    exact whole

theorem Consistent.ordered_start (consistent : Consistent c s)
    (iterates : Iterates order s.encodeToStreams) :
    Ordered c (s.record message).streams (.publishAll message order locked) where
  nodup := iterates.1
  provided := by
    intro encode i inside
    have key := (consistent.mapped _ i ((iterates.2 _ i).mp inside)).2
    rw [record_establisher]
    cases establisher : (s.streams i).establisher with
    | provided =>
      rw [establisher] at key
      exact ⟨Option.some.inj key, rfl⟩
    | _ =>
      rw [establisher] at key
      cases key
  pushes := nofun

theorem fresh_record (consistent : Consistent c s) (beyond : s.counter ≤ i) :
    (s.record message).streams i = .new τ π ε := by
  unfold State.record
  dsimp only
  rw [if_neg fun live => absurd live.1 (Nat.not_lt.mpr beyond)]
  exact consistent.fresh i beyond

theorem Consistent.next (consistent : Consistent c s) (idle : s.publishing = .idle)
    (running : s.completed = false) (iterates : Iterates order s.encodeToStreams) :
    Consistent c { s.record message with publishing := .publishAll message order true } where
  carried := consistent.carried_start idle running iterates
  mapped key i inside := by
    have before := consistent.mapped key i inside
    refine ⟨(record_live message i).mpr before.1, ?_⟩
    change key = ((s.record message).streams i).establisher.key (c.ofStream i)
    rw [record_establisher]
    exact before.2
  live _ i live := by
    change i ∈ s.encodeToStreams (((s.record message).streams i).establisher.key (c.ofStream i))
    rw [record_establisher]
    exact consistent.live running i ((record_live message i).mp live)
  fresh _ beyond := fresh_record consistent beyond
  ordered := consistent.ordered_start iterates

theorem Consistent.complete (consistent : Consistent c s) (idle : s.publishing = .idle)
    (running : s.completed = false) (iterates : Iterates order s.encodeToStreams) :
    Consistent c { s.record message with
      encodeToStreams := fun _ => ∅
      publishing := .publishAll message order false
      completed := true } where
  carried := consistent.carried_start idle running iterates
  mapped _ _ inside := absurd inside (Finset.notMem_empty _)
  live := nofun
  fresh _ beyond := fresh_record consistent beyond
  ordered := consistent.ordered_start iterates

end Start

/-! ## Changes of the map -/

theorem Consistent.removed (consistent : Consistent c s) (live : s.Live i)
    {map : EncodeToStreams E} (gone : ∀ key, i ∉ map key)
    (others : ∀ key j, j ≠ i → (j ∈ map key ↔ j ∈ s.encodeToStreams key)) :
    Consistent c { s.setStream i { s.streams i with removed := true } with
      encodeToStreams := map } where
  carried := carried_setStream (k := fun j => s.publishing.held c j)
    (fun j _ => consistent.carried j)
    ⟨(consistent.carried i).carried, (consistent.carried i).closed⟩
  mapped key j inside := by
    have other : j ≠ i := fun same => gone key (same ▸ inside)
    change (j < s.counter ∧ (Function.update s.streams i _ j).removed = false) ∧
      key = (Function.update s.streams i _ j).establisher.key (c.ofStream j)
    rw [Function.update_of_ne other]
    exact consistent.mapped key j ((others key j other).mp inside)
  live running j live := by
    change j < s.counter ∧ (Function.update s.streams i _ j).removed = false at live
    change j ∈ map ((Function.update s.streams i _ j).establisher.key (c.ofStream j))
    rcases eq_or_ne j i with rfl | other
    · rw [Function.update_self] at live
      cases live.2
    · rw [Function.update_of_ne other] at live ⊢
      exact (others _ j other).mpr (consistent.live running j live)
  fresh _ beyond := fresh_setStream consistent live.1 beyond
  ordered := consistent.ordered.setStream id id

theorem Consistent.provided (consistent : Consistent c s) (added : i < s.counter)
    (made : (s.streams i).establisher = .made) {map : EncodeToStreams E}
    (moved : ∀ key, i ∈ map key → s.Live i ∧ key = some (c.ofStream i))
    (kept : s.completed = false → s.Live i → i ∈ map (some (c.ofStream i)))
    (others : ∀ key j, j ≠ i → (j ∈ map key ↔ j ∈ s.encodeToStreams key)) :
    Consistent c { s.setStream i { s.streams i with establisher := .provided } with
      encodeToStreams := map } where
  carried := by
    obtain ⟨whole, closed⟩ := consistent.carried i
    rw [made] at whole closed
    exact carried_setStream (k := fun j => s.publishing.held c j)
      (fun j _ => consistent.carried j) ⟨whole, closed⟩
  mapped key j inside := by
    change (j < s.counter ∧ (Function.update s.streams i _ j).removed = false) ∧
      key = (Function.update s.streams i _ j).establisher.key (c.ofStream j)
    rcases eq_or_ne j i with rfl | other
    · rw [Function.update_self]
      exact moved key inside
    · rw [Function.update_of_ne other]
      exact consistent.mapped key j ((others key j other).mp inside)
  live running j live := by
    change j < s.counter ∧ (Function.update s.streams i _ j).removed = false at live
    change j ∈ map ((Function.update s.streams i _ j).establisher.key (c.ofStream j))
    rcases eq_or_ne j i with rfl | other
    · rw [Function.update_self] at live ⊢
      exact kept running live
    · rw [Function.update_of_ne other] at live ⊢
      exact (others _ j other).mpr (consistent.live running j live)
  fresh _ beyond := fresh_setStream consistent added beyond
  ordered := consistent.ordered.setStream (fun _ => rfl) id

section Map

variable [DecidableEq E]

theorem Consistent.addStream (consistent : Consistent c s) : Consistent c s.addStream where
  carried := consistent.carried
  mapped key i inside := by
    have fresh := consistent.fresh s.counter (Nat.le_refl _)
    have older (before : i ∈ s.encodeToStreams key) : s.addStream.Live i ∧
        key = (s.streams i).establisher.key (c.ofStream i) := by
      obtain ⟨live, same⟩ := consistent.mapped key i before
      exact ⟨⟨Nat.lt_succ_of_lt live.1, live.2⟩, same⟩
    change i ∈ Function.update s.encodeToStreams kPendingStreamsKey _ key at inside
    rcases eq_or_ne key kPendingStreamsKey with rfl | other
    · rw [Function.update_self, Finset.mem_insert] at inside
      rcases inside with rfl | before
      · refine ⟨⟨Nat.lt_succ_self _, ?_⟩, ?_⟩
        · change (s.streams s.counter).removed = false
          rw [fresh]
          rfl
        · change _ = (s.streams s.counter).establisher.key _
          rw [fresh]
          rfl
      · exact older before
    · rw [Function.update_of_ne other] at inside
      exact older inside
  live running i live := by
    change i ∈ Function.update s.encodeToStreams kPendingStreamsKey _
      ((s.streams i).establisher.key (c.ofStream i))
    rcases Nat.lt_succ_iff_lt_or_eq.mp live.1 with before | rfl
    · have inside := consistent.live running i ⟨before, live.2⟩
      rcases eq_or_ne ((s.streams i).establisher.key (c.ofStream i)) kPendingStreamsKey with
        pending | other
      · rw [pending] at inside ⊢
        rw [Function.update_self]
        exact Finset.mem_insert_of_mem inside
      · rwa [Function.update_of_ne other]
    · rw [consistent.fresh s.counter (Nat.le_refl _)]
      change s.counter ∈ Function.update s.encodeToStreams kPendingStreamsKey _ kPendingStreamsKey
      rw [Function.update_self]
      exact Finset.mem_insert_self _ _
  fresh i beyond := consistent.fresh i (Nat.le_of_succ_le beyond)
  ordered := consistent.ordered

theorem Consistent.removeStream (consistent : Consistent c s) (live : s.Live i)
    {found : Option (Option E)}
    (finds : match found with
      | none => ∀ key, i ∉ s.encodeToStreams key
      | some key => i ∈ s.encodeToStreams key) : Consistent c (s.removeStream i found) := by
  cases found with
  | none => exact consistent.removed live finds fun _ _ _ => Iff.rfl
  | some key =>
    refine consistent.removed live (fun key' inside => ?_) fun key' j other => ?_
    · rcases eq_or_ne key' key with rfl | differ
      · rw [Function.update_self] at inside
        exact Finset.notMem_erase i _ inside
      · -- The stream is in one entry only.
        rw [Function.update_of_ne differ] at inside
        have this := (consistent.mapped key' i inside).2
        exact differ (this.trans (consistent.mapped key i finds).2.symm)
    · rcases eq_or_ne key' key with rfl | differ
      · rw [Function.update_self, Finset.mem_erase, and_iff_right other]
      · rw [Function.update_of_ne differ]

theorem Consistent.provideEncodeFn (consistent : Consistent c s)
    (made : (s.streams i).establisher = .made) :
    Consistent c (s.provideEncodeFn i (c.ofStream i)) := by
  have added : i < s.counter := by
    by_contra beyond
    rw [consistent.fresh i (Nat.not_lt.mp beyond)] at made
    cases made
  have pending : (s.streams i).establisher.key (c.ofStream i) = kPendingStreamsKey := by
    rw [made]
    rfl
  have differ : (some (c.ofStream i) : Option E) ≠ kPendingStreamsKey := Option.some_ne_none _
  unfold State.provideEncodeFn
  dsimp only
  split
  · rename_i inside
    have live := (consistent.mapped _ i inside).1
    refine consistent.provided added made (fun key here => ⟨live, ?_⟩) (fun _ _ => ?_)
      fun key j other => ?_
    · by_contra elsewhere
      rw [Function.update_of_ne elsewhere] at here
      rcases eq_or_ne key kPendingStreamsKey with rfl | encoded
      · rw [Function.update_self] at here
        exact Finset.notMem_erase i _ here
      · rw [Function.update_of_ne encoded] at here
        exact encoded ((consistent.mapped key i here).2.trans pending)
    · rw [Function.update_self]
      exact Finset.mem_insert_self _ _
    · rcases eq_or_ne key (some (c.ofStream i)) with rfl | elsewhere
      · rw [Function.update_self, Function.update_of_ne differ, Finset.mem_insert,
          or_iff_right other]
      · rw [Function.update_of_ne elsewhere]
        rcases eq_or_ne key kPendingStreamsKey with rfl | encoded
        · rw [Function.update_self, Finset.mem_erase, and_iff_right other]
        · rw [Function.update_of_ne encoded]
  · rename_i absent
    refine consistent.provided added made (fun key here => ?_) (fun running live => ?_)
      fun _ _ _ => Iff.rfl
    · have same := (consistent.mapped key i here).2.trans pending
      exact absurd (same ▸ here) absent
    · exact absurd (pending ▸ consistent.live running i live) absent

end Map

/-! ## Runs -/

/-- What streams have received, and where they are in the map. -/
structure ReachesSubscribers (c : Encoders E τ π ε) (s : State E τ π ε) : Prop where
  /-- What a stream received is, in order and each once, what was published to it so far. -/
  inOrder : ∀ i, (s.streams i).queue <+: (s.streams i).published.map (c.encode i)
  /-- When nothing goes on, a stream has received everything, in its queues. -/
  received : s.publishing = .idle → ∀ i, (s.streams i).establisher.held = [] →
    (s.streams i).queue ++ (s.streams i).encodeOrQueue.getMessages.map (c.encode i) =
      (s.streams i).published.map (c.encode i)
  inOneEntry : s.completed = false → ∀ i, s.Live i → ∃! key, i ∈ s.encodeToStreams key
  notRemoved : ∀ i, (s.streams i).removed = true → ∀ key, i ∉ s.encodeToStreams key

theorem Consistent.reaches (consistent : Consistent c s) : ReachesSubscribers c s where
  inOrder i := by
    rw [← (consistent.carried i).carried, List.append_assoc]
    exact List.prefix_append _ _
  received idle i nothing := by
    have whole := (consistent.carried i).carried
    rw [nothing, idle] at whole
    change _ ++ [] = _ at whole
    rwa [List.append_nil] at whole
  inOneEntry running i live :=
    ⟨_, consistent.live running i live, fun key inside => (consistent.mapped key i inside).2⟩
  notRemoved i removed key inside := by
    have live := (consistent.mapped key i inside).1.2
    rw [removed] at live
    cases live

variable [DecidableEq E]

theorem Consistent.step (consistent : Consistent c s) {e : Event E τ ε} (allowed : Allowed s e) :
    Consistent c (step c s e) := by
  cases e with
  | addStream => exact consistent.addStream
  | next value order => exact consistent.next allowed.1 allowed.2.1 allowed.2.2
  | complete terminal order => exact consistent.complete allowed.1 allowed.2.1 allowed.2.2.2
  | publish => exact consistent.publish
  | establishStream i => exact consistent.establishStream allowed.1 allowed.2
  | establish i => exact consistent.establish i
  | provideEncodeFn i => exact consistent.provideEncodeFn allowed.1
  | removeStream i found => exact consistent.removeStream allowed.1 allowed.2.2

/-- A multi-publisher reaches each of its streams exactly once, however the steps interleave. -/
theorem reaches_subscribers (c : Encoders E τ π ε) {events : List (Event E τ ε)}
    (run : Run (step c) Allowed (State.initial E τ π ε) events) :
    ReachesSubscribers c (events.foldl (step c) (State.initial E τ π ε)) :=
  (run.invariant Consistent.initial fun _ _ consistent => consistent.step).reaches

/-- Streams with one encoder, which numbers are sent with as they are. -/
def asTheyAre : Encoders Unit Nat Nat Nat where
  encoder _ := ⟨fun n => .payload n true, .exception⟩
  ofStream _ := ()

/-- A stream that is added, published to and then established. -/
def publishThenEstablish : List (Event Unit Nat Nat) :=
  [.addStream, .next 5 [(none, 0)], .publish, .publish, .establishStream 0, .establish 0,
    .establish 0, .establish 0, .establish 0, .establish 0, .provideEncodeFn 0]

theorem reaches_subscribers_one :
    let s := publishThenEstablish.foldl (step asTheyAre) (State.initial Unit Nat Nat Nat)
    ReachesSubscribers asTheyAre s ∧ (s.streams 0).queue = [.payload 5 true] := by
  refine ⟨reaches_subscribers asTheyAre ?_, rfl⟩
  refine ⟨⟨rfl, rfl⟩, ⟨rfl, rfl, List.nodup_singleton 0, fun key i => ?_⟩, trivial, trivial,
    ⟨Nat.one_pos, rfl⟩, trivial, trivial, trivial, trivial, trivial, ⟨rfl, rfl⟩, trivial⟩
  change (key, i) ∈ [(none, 0)] ↔
    i ∈ Function.update (fun _ => (∅ : Finset Nat)) none (insert 0 ∅) key
  cases key with
  | none => simp
  | some encode => simp

end FbThrift.ServerStreamMultiPublisher
