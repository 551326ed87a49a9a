import FbThrift.FastThrift.Defragmentation

/-!
# Frames come out whole

Each stream brings its frames one after the other, some of them as fragments, and a terminal
frame may abandon one.  While no fragment is dropped from the middle of a frame, what is fired
for a stream is its frames, reassembled.
-/

namespace FbThrift.FastThrift

open Rocket (Flags)
open SortedMap
open FrameDefragmentationHandler

/-! ## What a stream brings -/

/-- The frames that carry one frame: fragments, of which only the first has metadata, and the
frame behind them, which is the last fragment or a terminal frame that abandons them. -/
structure Message where
  fragments : List ParsedFrame
  close : ParsedFrame
  continuing : ∀ frame ∈ fragments, Continues frame
  closing : ¬ Continues close
  plain : ∀ frame ∈ (fragments ++ [close]).tail,
    frame.frameType.isTerminal = true ∨ frame.metadata.metadataSize = 0

namespace Message

def frames (message : Message) : List ParsedFrame := message.fragments ++ [message.close]

/-- One frame with the type, the flags and the metadata of the first fragment and the bytes of
all of them. -/
def reassembly (first : ParsedFrame) (rest : List ParsedFrame) : ParsedFrame :=
  let payload := (first :: rest).flatMap ParsedFrame.payload
  { metadata :=
      { first.metadata with
        flags := first.metadata.flags.set .follows false
        payloadOffset := 0
        payloadSize := UInt32.ofNat payload.length }
    buffer := payload }

def delivered (message : Message) : ParsedFrame :=
  match message.fragments with
  | [] => message.close
  | first :: rest =>
    if message.close.frameType.isTerminal then message.close
    else reassembly first (rest ++ [message.close])

end Message

theorem transduce_collect_continuing {fragments : List ParsedFrame}
    (continuing : ∀ frame ∈ fragments, Continues frame) (held : List ParsedFrame) :
    transduce collect held fragments = (held ++ fragments, []) := by
  induction fragments generalizing held with
  | nil => simp [transduce]
  | cons frame fragments ih =>
    obtain ⟨follows, nonterminal⟩ := continuing frame (by simp)
    have kept : collect held frame = (held ++ [frame], []) := by
      simp [collect, follows, nonterminal]
    have rest := ih (fun f member => continuing f (List.mem_cons_of_mem frame member))
      (held ++ [frame])
    rw [transduce, kept]
    simp only [rest, List.append_assoc, List.singleton_append, List.nil_append]

theorem assembleFrame_stateOf (first : ParsedFrame) {rest : List ParsedFrame}
    (plain : ∀ frame ∈ rest, frame.metadata.metadataSize = 0) :
    (stateOf (first :: rest)).map assembleFrame = some (Message.reassembly first rest) := by
  have data : rest.flatMap ParsedFrame.data = rest.flatMap ParsedFrame.payload :=
    List.flatMap_congr fun frame member => ParsedFrame.data_of_no_metadata (plain frame member)
  simp only [stateOf, data, Option.map_some]
  rfl

/-- A message leaves its one frame and nothing behind. -/
theorem transduce_collect_frames (message : Message) :
    transduce collect [] message.frames = ([], [message.delivered]) := by
  have close : collect message.fragments message.close = ([], [message.delivered]) := by
    unfold Message.delivered
    cases terminal : message.close.frameType.isTerminal with
    | true =>
      rw [collect, if_pos terminal]
      cases message.fragments <;> rfl
    | false =>
      have last : message.close.hasFollows = false := by
        have closing := message.closing
        simpa [Continues, terminal] using closing
      rw [collect, terminal, last]
      cases split : message.fragments with
      | nil => simp [stateOf]
      | cons first rest =>
        have plain : ∀ frame ∈ rest ++ [message.close], frame.metadata.metadataSize = 0 := by
          intro frame member
          have tail := message.plain
          rw [split, List.cons_append, List.tail_cons] at tail
          rcases tail frame member with ended | none
          · rcases List.mem_append.mp member with fragment | closes
            · have goesOn := (message.continuing frame (by simp [split, fragment])).2
              rw [ended] at goesOn
              cases goesOn
            · rw [List.mem_singleton.mp closes, terminal] at ended
              cases ended
          · exact none
        have assembled := assembleFrame_stateOf first plain
        rw [List.cons_append]
        cases state : stateOf (first :: (rest ++ [message.close])) with
        | none => cases state
        | some state' =>
          rw [state, Option.map_some, Option.some.injEq] at assembled
          simp [assembled]
  have fragments := transduce_collect_continuing message.continuing []
  rw [Message.frames, transduce_append, fragments]
  simp [transduce, close]

theorem transduce_collect_messages (messages : List Message) :
    transduce collect [] (messages.flatMap Message.frames) =
      ([], messages.map Message.delivered) := by
  induction messages with
  | nil => rfl
  | cons message messages ih =>
    rw [List.flatMap_cons, transduce_append, transduce_collect_frames, ih]
    rfl

/-! ## Runs -/

/-- A fragment that is dropped is the last frame of its stream, or a terminal frame comes
next. -/
def DropsAreFinal (maxPendingBytes : Nat) (frames : List ParsedFrame) : Prop :=
  ∀ before frame after, frames = before ++ frame :: after →
    (run maxPendingBytes before).1.Exceeds frame →
      ∀ next ∈ after.find? fun f => f.streamId = frame.streamId, next.frameType.isTerminal = true

/-- What the handler fires, the fragments it drops and the bytes it counts. -/
structure Intact (maxPendingBytes : Nat) (frames : List ParsedFrame)
    (messages : UInt32 → List Message) : Prop where
  /-- Each frame that is fired is one of those that the stream brought, whole. -/
  whole : ∀ streamId, ((run maxPendingBytes frames).2.filter fun f => f.streamId = streamId).Sublist
      ((messages streamId).map Message.delivered)
  /-- When no fragment is dropped, all of them are fired. -/
  complete : (∀ before frame after, frames = before ++ frame :: after →
      ¬ (run maxPendingBytes before).1.Exceeds frame) →
    ∀ streamId, ((run maxPendingBytes frames).2.filter fun f => f.streamId = streamId) =
      (messages streamId).map Message.delivered
  /-- Behind a fragment that is dropped, no other of the same frame is accepted. -/
  dropped : ∀ before frame between later after,
    frames = before ++ frame :: between ++ later :: after →
    ((run maxPendingBytes before).1.onRead frame).2 = .result .backpressure →
    later.streamId = frame.streamId → later.frameType.isTerminal = false →
    (∀ f ∈ frame :: between, f.streamId = frame.streamId → Continues f) →
      ((run maxPendingBytes (before ++ frame :: between)).1.onRead later).2 = .result .backpressure
  /-- At any time the counter tells the bytes that are buffered. -/
  counted : ∀ before after, frames = before ++ after →
    (run maxPendingBytes before).1.totalPendingBytes =
      total (fun state => state.payload.length) (run maxPendingBytes before).1.pending

section

variable {handler : FrameDefragmentationHandler} {frames held : List ParsedFrame} {k : UInt32}

theorem filter_fired (accounted : handler.Accounted) (frame : ParsedFrame) :
    (handler.onRead frame).2.fired.filter (fun f => f.streamId = k) =
      if frame.streamId = k then (handler.onRead frame).2.fired else [] := by
  have own := accounted.fired_streamId frame
  split
  next same =>
    rw [List.filter_eq_self]
    intro f member
    simp [own f member, same]
  next other =>
    rw [List.filter_eq_nil_iff]
    intro f member
    simp [own f member, other]

/-- As long as every fragment fits, a stream does what it does by itself. -/
theorem fired_eq_collect (accounted : handler.Accounted) (sized : ∀ f ∈ frames, f.Sized)
    (state : find k handler.pending = stateOf held)
    (fits : ∀ before frame after, frames = before ++ frame :: after →
      ¬ (transduce step handler before).1.Exceeds frame) :
    (transduce step handler frames).2.filter (fun f => f.streamId = k) =
      (transduce collect held (frames.filter fun f => f.streamId = k)).2 := by
  induction frames generalizing handler held with
  | nil => rfl
  | cons frame frames ih =>
    have firstSized := sized frame (by simp)
    have accounted' := accounted.onRead firstSized
    have sized' : ∀ f ∈ frames, f.Sized :=
      fun f member => sized f (List.mem_cons_of_mem frame member)
    have fits' : ∀ before f after, frames = before ++ f :: after →
        ¬ (transduce step (handler.onRead frame).1 before).1.Exceeds f := by
      intro before f after split
      exact fits (frame :: before) f after (by rw [split, List.cons_append])
    simp only [transduce, step, List.filter_append, filter_fired accounted]
    by_cases own : frame.streamId = k
    · subst own
      have within : ¬ handler.Exceeds frame := fits [] frame frames rfl
      obtain ⟨state', fired⟩ := onRead_own firstSized within state
      rw [if_pos rfl, List.filter_cons_of_pos (by simp), transduce, fired,
        ih accounted' sized' state' fits']
    · have state' := (onRead_others handler (Ne.symm own)).trans state
      rw [if_neg own, List.filter_cons_of_neg (by simp [own]), List.nil_append,
        ih accounted' sized' state' fits']

/-- A stream that has lost a fragment fires nothing but whole frames either, if what comes next
is a terminal frame. -/
theorem fired_sublist_collect (accounted : handler.Accounted) (sized : ∀ f ∈ frames, f.Sized)
    (state : find k handler.pending = stateOf held ∨
      ∀ next ∈ frames.find? fun f => f.streamId = k, next.frameType.isTerminal = true)
    (drops : ∀ before frame after, frames = before ++ frame :: after → frame.streamId = k →
      (transduce step handler before).1.Exceeds frame →
        ∀ next ∈ after.find? fun f => f.streamId = k, next.frameType.isTerminal = true) :
    ((transduce step handler frames).2.filter fun f => f.streamId = k).Sublist
      (transduce collect held (frames.filter fun f => f.streamId = k)).2 := by
  induction frames generalizing handler held with
  | nil => exact List.Sublist.refl _
  | cons frame frames ih =>
    have firstSized := sized frame (by simp)
    have accounted' := accounted.onRead firstSized
    have sized' : ∀ f ∈ frames, f.Sized :=
      fun f member => sized f (List.mem_cons_of_mem frame member)
    have drops' : ∀ before f after, frames = before ++ f :: after → f.streamId = k →
        (transduce step (handler.onRead frame).1 before).1.Exceeds f →
          ∀ next ∈ after.find? fun f => f.streamId = k, next.frameType.isTerminal = true := by
      intro before f after split
      exact drops (frame :: before) f after (by rw [split, List.cons_append])
    simp only [transduce, step, List.filter_append, filter_fired accounted]
    by_cases own : frame.streamId = k
    · rw [if_pos own, List.filter_cons_of_pos (by simp [own]), transduce]
      by_cases exceeds : handler.Exceeds frame
      · -- the handler forgets the frame, and the next one of the stream is terminal
        have next := drops [] frame frames rfl own exceeds
        have rest := @ih (handler.onRead frame).1 (collect held frame).1 accounted' sized'
          (.inr next) drops'
        rw [onRead_exceeds exceeds] at rest ⊢
        exact rest.trans (List.sublist_append_right _ _)
      · have both : find frame.streamId (handler.onRead frame).1.pending =
            stateOf (collect held frame).1 ∧
            (handler.onRead frame).2.fired = (collect held frame).2 := by
          rcases state with tracked | ended
          · rw [← own] at tracked
            exact onRead_own firstSized exceeds tracked
          · exact onRead_terminal handler (ended frame (by simp [own])) held
        rw [own] at both
        rw [both.2]
        exact (ih accounted' sized' (.inl both.1) drops').append_left _
    · rw [if_neg own, List.filter_cons_of_neg (by simp [own]), List.nil_append]
      refine ih accounted' sized' ?_ drops'
      rcases state with tracked | ended
      · exact .inl ((onRead_others handler (Ne.symm own)).trans tracked)
      · right
        rwa [List.find?_cons_of_neg (by simp [own])] at ended

end

/-- As long as the fragments that are dropped are the last of their frames, no damaged frame
comes out. -/
theorem frames_intact {maxPendingBytes : Nat} {frames : List ParsedFrame}
    {messages : UInt32 → List Message} {unfinished : UInt32 → List ParsedFrame}
    (arrive : ∀ streamId, frames.filter (fun f => f.streamId = streamId) =
      (messages streamId).flatMap Message.frames ++ unfinished streamId)
    (continuing : ∀ streamId, ∀ f ∈ unfinished streamId, Continues f)
    (sized : ∀ f ∈ frames, f.Sized) (final : DropsAreFinal maxPendingBytes frames) :
    Intact maxPendingBytes frames messages := by
  have accounted := accounted_new maxPendingBytes
  have collected : ∀ streamId,
      (transduce collect [] (frames.filter fun f => f.streamId = streamId)).2 =
        (messages streamId).map Message.delivered := by
    intro streamId
    rw [arrive streamId, transduce_append, transduce_collect_messages,
      transduce_collect_continuing (continuing streamId), List.append_nil]
  constructor
  · intro streamId
    rw [← collected streamId]
    refine fired_sublist_collect accounted sized (.inl rfl) ?_
    intro before frame after split own exceeds
    rw [← own]
    exact final before frame after split exceeds
  · intro fits streamId
    rw [← collected streamId]
    exact fired_eq_collect accounted sized rfl fits
  · intro before frame between later after split dropped same nonterminal goesOn
    -- no other fragment comes behind it
    exfalso
    rw [List.append_assoc, List.cons_append] at split
    have next := final before frame _ split (onRead_backpressure_iff.mp dropped)
    rw [List.find?_append] at next
    cases found : between.find? fun f => f.streamId = frame.streamId with
    | none =>
      rw [found, Option.none_or, List.find?_cons_of_pos (by simp [same])] at next
      have terminal := next later rfl
      rw [nonterminal] at terminal
      cases terminal
    | some f =>
      have own : f.streamId = frame.streamId := by simpa using List.find?_some found
      have member : f ∈ frame :: between :=
        List.mem_cons_of_mem _ (List.mem_of_find?_eq_some found)
      have terminal := next f (by rw [found]; rfl)
      rw [(goesOn f member own).2] at terminal
      cases terminal
  · intro before after split
    exact totalPendingBytes_run maxPendingBytes fun f member => sized f (by simp [split, member])

/-- A request in two fragments, between which another stream sends one and cancels. -/
theorem frames_intact_cancelled :
    let first : ParsedFrame := ⟨⟨.requestResponse, 1, ⟨384⟩, 2, 1, 4⟩, [0, 1, 2, 3, 4]⟩
    let last : ParsedFrame := ⟨⟨.payload, 1, ⟨32⟩, 0, 0, 1⟩, [5]⟩
    let fragment : ParsedFrame := ⟨⟨.requestFnf, 3, ⟨128⟩, 0, 0, 2⟩, [6, 7]⟩
    let cancel : ParsedFrame := ⟨⟨.cancel, 3, ⟨0⟩, 0, 0, 0⟩, []⟩
    let request : Message := ⟨[first], last, by decide, by decide, by decide⟩
    let cancelled : Message := ⟨[fragment], cancel, by decide, by decide, by decide⟩
    Intact 6 [first, fragment, cancel, last] fun streamId =>
      if streamId = 1 then [request] else if streamId = 3 then [cancelled] else [] := by
  intro first last fragment cancel request cancelled
  refine @frames_intact 6 _ _ (fun _ => []) ?_ (by simp) (by decide) ?_
  · intro streamId
    by_cases one : streamId = 1
    · subst one
      decide
    · by_cases three : streamId = 3
      · subst three
        decide
      · have notOne : (1 : UInt32) ≠ streamId := Ne.symm one
        have notThree : (3 : UInt32) ≠ streamId := Ne.symm three
        simp [first, last, fragment, cancel, ParsedFrame.streamId, one, three, notOne, notThree]
  · intro before frame after split exceeds
    exfalso
    revert exceeds
    rcases before with _ | ⟨_, _ | ⟨_, _ | ⟨_, _ | ⟨_, _⟩⟩⟩⟩
    · cases split
      decide +kernel
    · cases split
      decide +kernel
    · cases split
      decide +kernel
    · cases split
      decide +kernel
    · simp at split

/-- A fragment over the limit is lost from the middle of its frame. -/
theorem middle_fragment_lost : let first : ParsedFrame := ⟨⟨.payload, 1, ⟨160⟩, 0, 0, 2⟩, [1, 2]⟩
    let middle : ParsedFrame := ⟨⟨.payload, 1, ⟨160⟩, 0, 0, 3⟩, [3, 4, 5]⟩
    let last : ParsedFrame := ⟨⟨.payload, 1, ⟨32⟩, 0, 0, 1⟩, [6]⟩
    let message : Message := ⟨[first, middle], last, by decide, by decide, by decide⟩
    ((run 4 [first]).1.onRead middle).2 = .result .backpressure ∧
    (run 4 [first, middle, last]).2 = [⟨⟨.payload, 1, ⟨32⟩, 0, 0, 3⟩, [1, 2, 6]⟩] ∧
    ¬ Intact 4 [first, middle, last] fun streamId => if streamId = 1 then [message] else [] := by
  intro first middle last message
  refine ⟨by decide +kernel, by decide +kernel, ?_⟩
  intro intact
  have whole := (intact.whole 1).subset (a := ⟨⟨.payload, 1, ⟨32⟩, 0, 0, 3⟩, [1, 2, 6]⟩)
    (by decide +kernel)
  revert whole
  decide +kernel

end FbThrift.FastThrift
