import FbThrift.Async.ClientSinkBridge
import FbThrift.Rocket.FlowControl

/-!
# What the client's end of a sink keeps

The coroutine spends credits that it was given, waits only while nothing can go on, and pushes
nothing behind a terminal message.  The bridge is closed once.
-/

namespace FbThrift

namespace Sink

variable {π ε : Type}

/-! ## The invariant -/

/-- Who waits for credits has none. -/
def Waits.owned : Waits → Option UInt64
  | credits => some 0
  | finalResponse => none

/-- The credits that the coroutine has in hand while it may push payloads. -/
def SinkAt.owned : SinkAt π ε → Option UInt64
  | loop credits | ask credits | next credits | item credits _ | unresponded credits _
  | push credits _ => some credits
  | wait waits | hook waits | parked waits | collect waits => waits.owned
  | _ => none

def SinkAt.mayPush : SinkAt π ε → Bool
  | pushCanceled => true
  | sink => sink.owned.isSome

theorem SinkAt.mayPush_of_owned {sink : SinkAt π ε} {credits : UInt64}
    (own : sink.owned = some credits) : sink.mayPush := by
  unfold mayPush
  split
  · rfl
  · rw [own]
    rfl

/-- The consumer of the coroutine is registered or was woken. -/
def SinkAt.Parked : SinkAt π ε → Prop
  | hook _ | parked _ => True
  | _ => False

/-- The coroutine does not go for an item without credit. -/
def SinkAt.Funded (cancelled : Bool) : SinkAt π ε → Prop
  | ask credits => credits = 0 → cancelled
  | next credits | item credits _ | unresponded credits _ | push credits _ => credits ≠ 0
  | _ => True

def ServerMessage.credits : ServerMessage π ε → Int
  | requestN n => n.toInt
  | payloadOrError _ => 0

/-- The credits in messages. -/
def credited (messages : List (ServerMessage π ε)) : Int :=
  (messages.map ServerMessage.credits).sum

/-- The number of payloads among messages. -/
def payloads (messages : List (ClientMessage π ε)) : Nat :=
  messages.countP fun message => message.payload?.isSome

/-- Who waits is woken by messages or by cancellation. -/
structure Parks (sink : SinkAt π ε) (queue : BatonQueue (ServerMessage π ε)) (cancelled : Bool) :
    Prop where
  isOpen : queue.queue ≠ .closed
  waiting : sink.Parked → queue.Waiting
  up : ¬ sink.Parked → queue.queue ≠ .consumer
  woken : sink.Parked → queue.posted → queue.queue.held ≠ [] ∨ cancelled
  collects : ∀ waits, sink = .collect waits → queue.queue.held ≠ [] ∨ cancelled
  funded : sink.Funded cancelled

/-- Payloads are paid for, and nothing is pushed behind a terminal message. -/
structure Pays (sink : SinkAt π ε) (pushed : List (ClientMessage π ε))
    (held received : List (ServerMessage π ε)) : Prop where
  positive : ∀ n, .requestN n ∈ held → 0 < n.toInt
  owns : ∀ credits, sink.owned = some credits →
    payloads pushed + credits.toNat + credited held = credited received
  covered : payloads pushed + credited held ≤ credited received
  going : sink.mayPush → ∀ message ∈ pushed, message.payload?.isSome
  terminal : ∀ message ∈ pushed.dropLast, message.payload?.isSome

/-- The bridge is closed once, when the transport or an error ends it. -/
structure Closes (queue : TaskQueue (ClientMessage π ε)) (serverCallback : Bool)
    (pushed : List (ClientMessage π ε)) (received : List (ClientCall π ε)) (closes : Nat) :
    Prop where
  awake : serverCallback → queue.Awake
  unclosed : serverCallback → closes = 0
  unresponded : serverCallback → ∀ call ∈ received, call.isFinal = false
  erring : serverCallback → ∀ message ∈ pushed, message.call.isError →
    ∃ message ∈ queue.underway, message.call.isError
  closed : serverCallback = false → queue.queue = .closed ∧ queue.phase = .idle ∧ closes = 1
  finals : received.countP ClientCall.isFinal ≤ 1

namespace ClientSinkBridge

structure Consistent (c : ClientSinkBridge π ε) : Prop where
  parks : Parks c.sink c.clientQueue c.clientCancelled
  pays : Pays c.sink c.pushed c.clientQueue.queue.held (c.received.map ClientCall.message)
  closes : Closes c.serverQueue c.serverCallback c.pushed c.received c.closes

theorem Consistent.initial : (initial π ε).Consistent where
  parks :=
    { isOpen := nofun
      waiting := nofun
      up := fun _ => nofun
      woken := nofun
      collects := nofun
      funded := trivial }
  pays :=
    { positive := nofun
      owns := fun credits owned => by cases owned; rfl
      covered := Int.le_refl 0
      going := fun _ => nofun
      terminal := nofun }
  closes :=
    { awake := fun _ => TaskQueue.awake_waiting
      unclosed := fun _ => rfl
      unresponded := fun _ => nofun
      erring := fun _ => nofun
      closed := nofun
      finals := Nat.zero_le 1 }

end ClientSinkBridge

/-! ## Credits and payloads -/

theorem credited_append (xs ys : List (ServerMessage π ε)) :
    credited (xs ++ ys) = credited xs + credited ys := by
  rw [credited, List.map_append, List.sum_append]
  rfl

theorem credited_cons (m : ServerMessage π ε) (ms : List (ServerMessage π ε)) :
    credited (m :: ms) = m.credits + credited ms := rfl

theorem credited_nonneg {messages : List (ServerMessage π ε)}
    (positive : ∀ n, .requestN n ∈ messages → 0 < n.toInt) : 0 ≤ credited messages := by
  induction messages with
  | nil => exact Int.le_refl 0
  | cons m messages ih =>
    have rest := ih fun n listed => positive n (List.mem_cons_of_mem m listed)
    rw [credited_cons]
    cases m with
    | payloadOrError response => simpa [ServerMessage.credits] using rest
    | requestN n =>
      have first := positive n List.mem_cons_self
      change 0 ≤ n.toInt + credited messages
      omega

theorem payloads_append (xs ys : List (ClientMessage π ε)) :
    payloads (xs ++ ys) = payloads xs + payloads ys := List.countP_append

theorem addCredits_eq {messages : List (ServerMessage π ε)} {credits sum : UInt64}
    (positive : ∀ n, .requestN n ∈ messages → 0 < n.toInt)
    (fits : credits.toNat + credited messages < 2 ^ 64)
    (added : ClientSinkBridge.addCredits credits messages = some sum) :
    (sum.toNat : Int) = credits.toNat + credited messages ∧
      (messages ≠ [] → 0 < credited messages) := by
  induction messages generalizing credits with
  | nil =>
    cases added
    exact ⟨(Int.add_zero _).symm, fun some => absurd rfl some⟩
  | cons m messages ih =>
    cases m with
    | payloadOrError response => cases added
    | requestN n =>
      have later : ∀ n, .requestN n ∈ messages → 0 < n.toInt :=
        fun n listed => positive n (List.mem_cons_of_mem _ listed)
      have first := positive n List.mem_cons_self
      have rest := credited_nonneg later
      have split : credited (.requestN n :: messages) = n.toInt + credited messages := rfl
      have next : ((credits + n.toInt64.toUInt64).toNat : Int) = credits.toNat + n.toInt :=
        Rocket.toNat_add_signExtend (by omega) (by omega)
      have sum := (ih later (by omega) added).1
      exact ⟨by omega, fun _ => by omega⟩

namespace Pays

variable {sink sink' : SinkAt π ε} {pushed : List (ClientMessage π ε)}
variable {held received : List (ServerMessage π ε)} {credits : UInt64}

theorem move (pays : Pays sink pushed held received)
    (owned : ∀ credits, sink'.owned = some credits → sink.owned = some credits)
    (may : sink'.mayPush → sink.mayPush) : Pays sink' pushed held received where
  positive := pays.positive
  owns credits own := pays.owns credits (owned credits own)
  covered := pays.covered
  going going := pays.going (may going)
  terminal := pays.terminal

theorem pushPayload (pays : Pays sink pushed held received) (own : sink.owned = some credits)
    (funded : credits ≠ 0) (payload : π) :
    Pays (.loop (credits - 1)) (pushed ++ [.payloadOrError (.value payload)]) held received := by
  have before := pays.owns credits own
  have some : 0 < credits.toNat := by
    by_contra none
    exact funded (UInt64.toNat_inj.mp (by simpa using none))
  have paid : ((credits - 1).toNat : Int) = credits.toNat - 1 := Rocket.toNat_sub_one credits some
  have one : payloads (pushed ++ [.payloadOrError (.value payload)]) = payloads pushed + 1 := by
    rw [payloads_append]
    rfl
  have left := credited_nonneg pays.positive
  have all : ∀ message ∈ pushed ++ [.payloadOrError (.value payload)], message.payload?.isSome := by
    intro message listed
    rcases List.mem_append.mp listed with earlier | last
    · exact pays.going (SinkAt.mayPush_of_owned own) message earlier
    · cases List.mem_singleton.mp last
      rfl
  refine ⟨pays.positive, ?_, ?_, fun _ => all, fun message listed =>
    all message (List.mem_of_mem_dropLast listed)⟩
  · intro left own
    cases own
    rw [one, Nat.cast_add, Nat.cast_one]
    omega
  · rw [one, Nat.cast_add, Nat.cast_one]
    omega

/-- Nothing follows what is no payload. -/
theorem pushLast (pays : Pays sink pushed held received) (may : sink.mayPush)
    (ended : sink'.mayPush = false) {message : ClientMessage π ε}
    (last : message.payload? = none) : Pays sink' (pushed ++ [message]) held received where
  positive := pays.positive
  owns credits own := by
    rw [SinkAt.mayPush_of_owned own] at ended
    cases ended
  covered := by
    have same : payloads (pushed ++ [message]) = payloads pushed := by
      rw [payloads_append, payloads, payloads, List.countP_singleton, last]
      rfl
    rw [same]
    exact pays.covered
  going going := by rw [ended] at going; cases going
  terminal := by
    rw [List.dropLast_concat]
    exact pays.going may

end Pays

theorem Closes.push {queue : TaskQueue (ClientMessage π ε)} {serverCallback : Bool}
    {pushed : List (ClientMessage π ε)} {received : List (ClientCall π ε)} {closes : Nat}
    (ok : Closes queue serverCallback pushed received closes) (message : ClientMessage π ε) :
    Closes (queue.push message) serverCallback (pushed ++ [message]) received closes where
  awake callback := (ok.awake callback).push message
  unclosed := ok.unclosed
  unresponded := ok.unresponded
  erring callback m listed error := by
    rw [TaskQueue.underway_push (ok.awake callback)]
    rcases List.mem_append.mp listed with earlier | last
    · obtain ⟨other, inside, error⟩ := ok.erring callback m earlier error
      exact ⟨other, List.mem_append_left _ inside, error⟩
    · exact ⟨m, List.mem_append_right _ last, error⟩
  closed callback := by
    obtain ⟨closed, idle, once⟩ := ok.closed callback
    rw [TaskQueue.push_closed closed]
    exact ⟨closed, idle, once⟩
  finals := ok.finals

namespace Parks

variable {sink sink' : SinkAt π ε} {queue : BatonQueue (ServerMessage π ε)} {cancelled : Bool}

theorem move (parks : Parks sink queue cancelled) (up : ¬ sink.Parked) (up' : ¬ sink'.Parked)
    (collects : ∀ waits, sink' ≠ .collect waits) (funded : sink'.Funded cancelled) :
    Parks sink' queue cancelled where
  isOpen := parks.isOpen
  waiting parked := absurd parked up'
  up _ := parks.up up
  woken parked := absurd parked up'
  collects waits at_ := absurd at_ (collects waits)
  funded := funded

theorem cancelCallback (parks : Parks sink queue cancelled) (parked : sink.Parked)
    (parked' : sink'.Parked) : Parks sink' queue.cancelCallback true where
  isOpen := BatonQueue.isOpen_cancelCallback parks.isOpen
  waiting _ := (parks.waiting parked).cancelCallback
  up up := absurd parked' up
  woken _ _ := .inr rfl
  collects waits at_ := by
    rw [at_] at parked'
    exact parked'.elim
  funded := by
    cases sink' <;> trivial

/-- A message wakes who waits. -/
theorem push (parks : Parks sink queue cancelled) (message : ServerMessage π ε) :
    Parks sink (queue.push message) cancelled where
  isOpen := BatonQueue.isOpen_push parks.isOpen message
  waiting parked := (parks.waiting parked).push message
  up up := BatonQueue.up_push (parks.up up) message
  woken _ _ := .inl (by rw [BatonQueue.push, AtomicQueue.held_push parks.isOpen]; simp)
  collects _ _ := .inl (by rw [BatonQueue.push, AtomicQueue.held_push parks.isOpen]; simp)
  funded := parks.funded

theorem cancel (parks : Parks sink queue cancelled) : Parks sink queue true where
  isOpen := parks.isOpen
  waiting := parks.waiting
  up := parks.up
  woken _ _ := .inr rfl
  collects _ _ := .inr rfl
  funded := by
    have funded := parks.funded
    cases sink <;> first | exact funded | exact fun _ => rfl

end Parks

namespace ClientSinkBridge.Consistent

variable {c : ClientSinkBridge π ε}

/-- A step that changes nothing but where the coroutine is. -/
theorem move (ok : c.Consistent) (up : ¬ c.sink.Parked) (sink : SinkAt π ε)
    (up' : ¬ sink.Parked) (collects : ∀ waits, sink ≠ .collect waits)
    (funded : sink.Funded c.clientCancelled)
    (owned : ∀ credits, sink.owned = some credits → c.sink.owned = some credits)
    (may : sink.mayPush → c.sink.mayPush) :
    ClientSinkBridge.Consistent { c with sink := sink } where
  parks := ok.parks.move up up' collects funded
  pays := ok.pays.move owned may
  closes := ok.closes

/-- Between waits the coroutine keeps what it owns. -/
theorem stay (ok : c.Consistent) {waits : Waits} {sink : SinkAt π ε}
    (at_ : c.sink = .wait waits ∨ c.sink = .hook waits ∨ c.sink = .parked waits)
    (at' : sink = .hook waits ∨ sink = .parked waits ∨ sink = .collect waits) :
    Pays sink c.pushed c.clientQueue.queue.held (c.received.map ClientCall.message) := by
  refine ok.pays.move (fun credits own => ?_) fun going => ?_
  · rcases at_ with at_ | at_ | at_ <;> rcases at' with rfl | rfl | rfl <;> rwa [at_]
  · rcases at_ with at_ | at_ | at_ <;> rcases at' with rfl | rfl | rfl <;> rwa [at_]

theorem advance_wait (ok : c.Consistent) {waits : Waits} (at_ : c.sink = .wait waits)
    (canceled : ε) : (c.advance canceled).Consistent := by
  rcases BatonQueue.wait_cases c.clientQueue with
    ⟨m, queue, messages, found⟩ | ⟨closed, _⟩ | ⟨empty, _, scheduled⟩
  · simp only [advance, at_, found]
    exact
      { parks :=
          { isOpen := ok.parks.isOpen
            waiting := nofun
            up := fun _ => by rw [messages]; nofun
            woken := nofun
            collects := fun _ _ => .inl (by rw [messages]; nofun)
            funded := trivial }
        pays := ok.stay (.inl at_) (.inr (.inr rfl))
        closes := ok.closes }
  · exact absurd closed ok.parks.isOpen
  · simp only [advance, at_, scheduled]
    have pays := ok.stay (.inl at_) (.inl rfl)
    rw [empty] at pays
    exact
      { parks :=
          { isOpen := nofun
            waiting := fun _ => BatonQueue.waiting_scheduled
            up := fun up => absurd trivial up
            woken := nofun
            collects := nofun
            funded := trivial }
        pays := pays
        closes := ok.closes }

theorem advance_hook (ok : c.Consistent) {waits : Waits} (at_ : c.sink = .hook waits)
    (canceled : ε) : (c.advance canceled).Consistent := by
  have parked : c.sink.Parked := by
    rw [at_]
    trivial
  have pays := ok.stay (.inr (.inl at_)) (.inr (.inl rfl))
  cases cancelled : c.clientCancelled with
  | true =>
    have parks : Parks (.parked waits) c.clientQueue.cancelCallback true :=
      ok.parks.cancelCallback parked trivial
    rw [← cancelled] at parks
    simp only [advance, at_]
    rw [if_pos cancelled]
    exact
      { parks := parks
        pays := by rwa [← BatonQueue.held_cancelCallback] at pays
        closes := ok.closes }
  | false =>
    simp only [advance, at_]
    rw [if_neg (Bool.eq_false_iff.mp cancelled)]
    exact
      { parks :=
          { isOpen := ok.parks.isOpen
            waiting := fun _ => ok.parks.waiting parked
            up := fun up => absurd trivial up
            woken := fun _ => ok.parks.woken parked
            collects := nofun
            funded := trivial }
        pays := pays
        closes := ok.closes }

theorem advance_parked (ok : c.Consistent) {waits : Waits} (at_ : c.sink = .parked waits)
    (canceled : ε) : (c.advance canceled).Consistent := by
  have parked : c.sink.Parked := by
    rw [at_]
    trivial
  cases posted : c.clientQueue.posted with
  | false =>
    simp only [advance, at_]
    rwa [if_neg (Bool.eq_false_iff.mp posted)]
  | true =>
    simp only [advance, at_]
    rw [if_pos posted]
    exact
      { parks :=
          { isOpen := ok.parks.isOpen
            waiting := nofun
            up := fun _ asleep => by
              rw [(ok.parks.waiting parked).asleep asleep] at posted
              cases posted
            woken := nofun
            collects := fun _ _ => ok.parks.woken parked posted
            funded := trivial }
        pays := ok.stay (.inr (.inr at_)) (.inr (.inr rfl))
        closes := ok.closes }

theorem advance_collect (ok : c.Consistent) {waits : Waits} (at_ : c.sink = .collect waits)
    (fits : credited c.clientQueue.queue.held < 2 ^ 64) (canceled : ε) :
    (c.advance canceled).Consistent := by
  have up : ¬ c.sink.Parked := by
    rw [at_]
    exact id
  have some := ok.parks.collects waits at_
  have parks : ∀ sink : SinkAt π ε, ¬ sink.Parked → (∀ waits, sink ≠ .collect waits) →
      sink.Funded c.clientCancelled → Parks sink c.clientQueue.take c.clientCancelled :=
    fun sink up' collects funded =>
      have parks := ok.parks.move up up' collects funded
      { parks with
        isOpen := fun closed => parks.isOpen (AtomicQueue.emptied_eq_closed.mp closed)
        waiting := fun parked => absurd parked up'
        up := fun _ asleep => parks.up up' (AtomicQueue.emptied_eq_consumer.mp asleep)
        woken := fun parked => absurd parked up'
        collects := fun waits at_ => absurd at_ (collects waits) }
  have covered : payloads c.pushed + credited c.clientQueue.take.queue.held ≤
      credited (c.received.map ClientCall.message) := by
    have left := credited_nonneg ok.pays.positive
    have covered := ok.pays.covered
    rw [BatonQueue.take, AtomicQueue.held_emptied]
    change payloads c.pushed + (0 : Int) ≤ _
    omega
  have pays : ∀ sink : SinkAt π ε, sink.owned = none → sink.mayPush = false →
      Pays sink c.pushed c.clientQueue.take.queue.held (c.received.map ClientCall.message) := by
    intro sink owned may
    exact
      { positive := by rw [BatonQueue.take, AtomicQueue.held_emptied]; nofun
        owns := fun credits own => by rw [owned] at own; cases own
        covered := covered
        going := fun going => by rw [may] at going; cases going
        terminal := ok.pays.terminal }
  simp only [advance, at_]
  cases waits with
  | finalResponse =>
    rw [collected]
    split
    · exact ⟨parks _ id nofun trivial, pays _ rfl rfl, ok.closes⟩
    · exact ⟨parks _ id nofun trivial, pays _ rfl rfl, ok.closes⟩
  | credits =>
    rw [collected]
    cases added : addCredits 0 c.clientQueue.queue.held with
    | none => exact ⟨parks _ id nofun trivial, pays _ rfl rfl, ok.closes⟩
    | some sum =>
      obtain ⟨total, grows⟩ := addCredits_eq ok.pays.positive (by simpa using fits) added
      have total : (sum.toNat : Int) = credited c.clientQueue.queue.held := by simpa using total
      refine ⟨parks _ id nofun fun zero => ?_, ?_, ok.closes⟩
      · rcases some with some | cancelled
        · have positive := grows some
          rw [zero] at total
          exact absurd total (by simpa using positive.ne)
        · exact cancelled
      · have owned := ok.pays.owns 0 (by rw [at_]; rfl)
        exact
          { positive := by rw [BatonQueue.take, AtomicQueue.held_emptied]; nofun
            owns := fun credits own => by
              cases own
              rw [BatonQueue.take, AtomicQueue.held_emptied, total, ← owned]
              exact (Int.add_right_comm ..).trans (congrArg _ rfl)
            covered := covered
            going := fun _ => ok.pays.going (SinkAt.mayPush_of_owned (by rw [at_]; rfl))
            terminal := ok.pays.terminal }

theorem advance_push (ok : c.Consistent) {credits : UInt64} {item : Option (Try π ε)}
    (at_ : c.sink = .push credits item) (canceled : ε) : (c.advance canceled).Consistent := by
  have up : ¬ c.sink.Parked := by
    rw [at_]
    exact id
  have own : c.sink.owned = some credits := by rw [at_]; rfl
  have may : c.sink.mayPush := SinkAt.mayPush_of_owned own
  have funded : credits ≠ 0 := by
    have funded := ok.parks.funded
    rwa [at_] at funded
  have parks : ∀ sink : SinkAt π ε, ¬ sink.Parked → (∀ waits, sink ≠ .collect waits) →
      sink.Funded c.clientCancelled → Parks sink c.clientQueue c.clientCancelled :=
    fun sink up' collects funded => ok.parks.move up up' collects funded
  simp only [advance, at_]
  cases item with
  | none =>
    exact ⟨parks _ id nofun trivial, ok.pays.pushLast may rfl rfl, ok.closes.push _⟩
  | some item =>
    cases item with
    | value payload =>
      exact ⟨parks _ id nofun trivial, ok.pays.pushPayload own funded payload, ok.closes.push _⟩
    | exception error =>
      exact ⟨parks _ id nofun trivial, ok.pays.pushLast may rfl rfl, ok.closes.push _⟩
    | empty => exact ⟨parks _ id nofun trivial, ok.pays.pushLast may rfl rfl, ok.closes.push _⟩

/-- The coroutine keeps the invariant as long as the credits that it takes fit. -/
theorem advance (ok : c.Consistent) (fits : credited c.clientQueue.queue.held < 2 ^ 64)
    (canceled : ε) : (c.advance canceled).Consistent := by
  have funded := ok.parks.funded
  cases at_ : c.sink with
  | loop credits =>
    have goTo := ok.move (by rw [at_]; exact id)
    rw [at_] at goTo
    simp only [ClientSinkBridge.advance, at_]
    split
    next => exact goTo _ id nofun trivial nofun nofun
    next =>
      split
      next zero =>
        exact goTo _ id nofun trivial (fun credits own => by cases own; rw [zero]; rfl) id
      next some => exact goTo _ id nofun some (fun _ own => own) id
  | wait waits => exact ok.advance_wait at_ canceled
  | hook waits => exact ok.advance_hook at_ canceled
  | parked waits => exact ok.advance_parked at_ canceled
  | collect waits => exact ok.advance_collect at_ fits canceled
  | ask credits =>
    have goTo := ok.move (by rw [at_]; exact id)
    rw [at_] at goTo funded
    simp only [ClientSinkBridge.advance, at_]
    split
    next => exact goTo _ id nofun trivial nofun fun _ => rfl
    next going => exact goTo _ id nofun (fun zero => going (funded zero)) (fun _ own => own) id
  | next credits =>
    simpa only [ClientSinkBridge.advance, at_] using ok
  | item credits item =>
    have goTo := ok.move (by rw [at_]; exact id)
    rw [at_] at goTo funded
    simp only [ClientSinkBridge.advance, at_]
    split
    next => exact goTo _ id nofun trivial nofun nofun
    next => exact goTo _ id nofun funded (fun _ own => own) id
  | unresponded credits item =>
    have goTo := ok.move (by rw [at_]; exact id)
    rw [at_] at goTo funded
    simp only [ClientSinkBridge.advance, at_]
    split
    next => exact goTo _ id nofun trivial nofun fun _ => rfl
    next => exact goTo _ id nofun funded (fun _ own => own) id
  | push credits item => exact ok.advance_push at_ canceled
  | pushCanceled =>
    have parks : Parks .ended c.clientQueue c.clientCancelled :=
      ok.parks.move (by rw [at_]; exact id) id nofun trivial
    simp only [ClientSinkBridge.advance, at_]
    exact ⟨parks, ok.pays.pushLast (by rw [at_]; rfl) rfl rfl, ok.closes.push _⟩
  | safePoint =>
    have goTo := ok.move (by rw [at_]; exact id)
    rw [at_] at goTo
    simp only [ClientSinkBridge.advance, at_]
    split
    next => exact goTo _ id nofun trivial nofun nofun
    next => exact goTo _ id nofun trivial nofun nofun
  | ended =>
    simpa only [ClientSinkBridge.advance, at_] using ok

theorem yield (ok : c.Consistent) (item : Option (Try π ε)) : (c.yield item).Consistent := by
  have funded := ok.parks.funded
  unfold ClientSinkBridge.yield
  split
  next credits at_ =>
    rw [at_] at funded
    refine ok.move (by rw [at_]; exact id) _ id nofun funded (fun _ own => by rwa [at_]) fun _ => ?_
    rw [at_]
    rfl
  next => exact ok

theorem throw (ok : c.Consistent) (asks : c.sink.Asks) :
    ClientSinkBridge.Consistent { c with sink := .ended } := by
  refine ok.move (fun parked => ?_) _ id nofun trivial nofun nofun
  cases at_ : c.sink <;> rw [at_] at asks parked <;> first | exact asks | exact parked

theorem cancel (ok : c.Consistent) : c.cancel.Consistent := by
  unfold ClientSinkBridge.cancel
  split
  next waits at_ =>
    have parked : c.sink.Parked := by
      rw [at_]
      trivial
    have pays := ok.pays
    rw [← BatonQueue.held_cancelCallback] at pays
    exact ⟨ok.parks.cancelCallback parked parked, pays, ok.closes⟩
  next => exact ⟨ok.parks.cancel, ok.pays, ok.closes⟩

/-- A call of the transport on a bridge that is not closed. -/
theorem receive (ok : c.Consistent) (isOpen : c.serverCallback) {call : ClientCall π ε}
    (positive : ∀ n, call = .onSinkRequestN n → 0 < n.toInt) : (c.receive call).Consistent := by
  have parks := ok.parks.push call.message
  have credits : 0 ≤ call.message.credits := by
    cases call with
    | onSinkRequestN n => exact (positive n rfl).le
    | onFinalResponse payload => exact Int.le_refl 0
    | onFinalResponseError error => exact Int.le_refl 0
  have total : credited ((c.received ++ [call]).map ClientCall.message) =
      credited (c.received.map ClientCall.message) + call.message.credits := by
    rw [List.map_append, credited_append]
    exact congrArg _ (Int.add_zero _)
  have last : credited [call.message] = call.message.credits := Int.add_zero _
  have pays : Pays c.sink c.pushed (c.clientQueue.push call.message).queue.held
      ((c.received ++ [call]).map ClientCall.message) := by
    rw [BatonQueue.push, AtomicQueue.held_push ok.parks.isOpen]
    exact
      { positive := fun n listed => by
          rcases List.mem_append.mp listed with earlier | last
          · exact ok.pays.positive n earlier
          · cases call <;> cases List.mem_singleton.mp last
            exact positive n rfl
        owns := fun credits own => by
          have owns := ok.pays.owns credits own
          rw [total, credited_append, last]
          omega
        covered := by
          have covered := ok.pays.covered
          rw [total, credited_append, last]
          omega
        going := ok.pays.going
        terminal := ok.pays.terminal }
  have noFinals : c.received.countP ClientCall.isFinal = 0 :=
    List.countP_eq_zero.mpr fun call listed => by
      rw [ok.closes.unresponded isOpen call listed]
      exact Bool.false_ne_true
  have finals : (c.received ++ [call]).countP ClientCall.isFinal ≤ 1 := by
    rw [List.countP_append, noFinals, Nat.zero_add]
    exact List.countP_le_length
  have received : ClientSinkBridge.Consistent { c with
      clientQueue := c.clientQueue.push call.message
      received := c.received ++ [call] } ∨ call.isFinal := by
    cases final : call.isFinal with
    | true => exact .inr rfl
    | false =>
      exact .inl ⟨parks, pays,
        { ok.closes with
          unresponded := fun isOpen other listed => by
            rcases List.mem_append.mp listed with earlier | last
            · exact ok.closes.unresponded isOpen other earlier
            · cases List.mem_singleton.mp last
              exact final
          finals := finals }⟩
  unfold ClientSinkBridge.receive
  split
  next final =>
    exact
      { parks := parks
        pays := pays
        closes :=
          { awake := by rintro ⟨⟩
            unclosed := by rintro ⟨⟩
            unresponded := by rintro ⟨⟩
            erring := by rintro ⟨⟩
            closed := fun _ => ⟨rfl, rfl, congrArg Nat.succ (ok.closes.unclosed isOpen)⟩
            finals := finals } }
  next more => exact received.resolve_right more

/-- A step of the event base: nothing that matters, or the call for the oldest message. -/
theorem processServerMessages_cases (ok : c.Consistent)
    (task : 0 < c.serverQueue.tasks + c.serverQueue.phase.running) :
    (∃ queue, c.processServerMessages = ({ c with serverQueue := queue }, none) ∧
      (c.serverCallback → queue.Awake ∧ queue.underway = c.serverQueue.underway) ∧
      (c.serverCallback = false → queue.queue = .closed ∧ queue.phase = .idle)) ∨
    (c.serverCallback ∧ ∃ queue message, queue.Awake ∧
      c.serverQueue.underway = message :: queue.underway ∧
      c.processServerMessages = (if message.call.isError then close { c with serverQueue := queue }
          else { c with serverQueue := queue }, some message.call)) := by
  unfold ClientSinkBridge.processServerMessages
  cases isOpen : c.serverCallback with
  | false =>
    obtain ⟨closed, idle, once⟩ := ok.closes.closed isOpen
    rw [TaskQueue.turn_closed idle]
    exact .inl ⟨_, rfl, nofun, fun _ => ⟨closed, idle⟩⟩
  | true =>
    obtain ⟨awake, underway⟩ := (ok.closes.awake isOpen).turn task
    rcases turn : c.serverQueue.turn true with ⟨queue, goesOn | message | sleeps⟩
    · rw [turn] at awake underway
      exact .inl ⟨queue, rfl, fun _ => ⟨awake, underway.symm⟩, nofun⟩
    · rw [turn] at awake underway
      exact .inr ⟨rfl, queue, message, awake, underway, rfl⟩
    · rw [turn] at awake underway
      exact .inl ⟨queue, rfl, fun _ => ⟨awake, underway.symm⟩, nofun⟩

/-- `sink` pushes at most one message at a time. -/
theorem advance_cases (c : ClientSinkBridge π ε) (canceled : ε) :
    (∃ queue sink, c.advance canceled = { c with clientQueue := queue, sink := sink }) ∨
      ∃ message sink, c.advance canceled = { c.clientPush message with sink := sink } := by
  unfold ClientSinkBridge.advance
  cases c.sink with
  | loop credits =>
    dsimp only
    split
    next => exact .inl ⟨_, _, rfl⟩
    next => split <;> exact .inl ⟨_, _, rfl⟩
  | wait waits =>
    dsimp only
    split <;> exact .inl ⟨_, _, rfl⟩
  | hook waits =>
    dsimp only
    split <;> exact .inl ⟨_, _, rfl⟩
  | parked waits =>
    dsimp only
    split
    next => exact .inl ⟨_, _, rfl⟩
    next => exact .inl ⟨c.clientQueue, c.sink, rfl⟩
  | collect waits => exact .inl ⟨_, _, rfl⟩
  | ask credits =>
    dsimp only
    split <;> exact .inl ⟨_, _, rfl⟩
  | next credits => exact .inl ⟨c.clientQueue, c.sink, rfl⟩
  | item credits item =>
    dsimp only
    split <;> exact .inl ⟨_, _, rfl⟩
  | unresponded credits item =>
    dsimp only
    split <;> exact .inl ⟨_, _, rfl⟩
  | push credits item =>
    rcases item with _ | payload | error | _ <;> exact .inr ⟨_, _, rfl⟩
  | pushCanceled => exact .inr ⟨_, _, rfl⟩
  | safePoint =>
    dsimp only
    split <;> exact .inl ⟨_, _, rfl⟩
  | ended => exact .inl ⟨c.clientQueue, c.sink, rfl⟩

/-- The event base passes on what was pushed, and closes the bridge behind an error. -/
theorem processServerMessages (ok : c.Consistent)
    (task : 0 < c.serverQueue.tasks + c.serverQueue.phase.running) :
    c.processServerMessages.1.Consistent := by
  rcases ok.processServerMessages_cases task with
    ⟨queue, turned, opened, closed⟩ | ⟨isOpen, queue, message, awake, underway, turned⟩
  · rw [turned]
    exact ⟨ok.parks, ok.pays,
      { awake := fun isOpen => (opened isOpen).1
        unclosed := ok.closes.unclosed
        unresponded := ok.closes.unresponded
        erring := fun isOpen => by
          rw [(opened isOpen).2]
          exact ok.closes.erring isOpen
        closed := fun isClosed => by
          obtain ⟨ended, idle⟩ := closed isClosed
          exact ⟨ended, idle, (ok.closes.closed isClosed).2.2⟩
        finals := ok.closes.finals }⟩
  · rw [turned]
    cases error : message.call.isError with
    | true =>
      exact ⟨ok.parks, ok.pays,
        { awake := nofun
          unclosed := nofun
          unresponded := nofun
          erring := nofun
          closed := fun _ => ⟨rfl, rfl, congrArg Nat.succ (ok.closes.unclosed isOpen)⟩
          finals := ok.closes.finals }⟩
    | false =>
      exact ⟨ok.parks, ok.pays,
        { ok.closes with
          awake := fun _ => awake
          erring := fun _ other listed isError => by
            have erring := ok.closes.erring isOpen other listed isError
            rw [underway] at erring
            obtain ⟨found, inside, isError⟩ := erring
            rcases List.mem_cons.mp inside with rfl | inside
            · rw [error] at isError
              cases isError
            · exact ⟨found, inside, isError⟩
          closed := fun closed => by
            change c.serverCallback = false at closed
            rw [isOpen] at closed
            cases closed }⟩

end ClientSinkBridge.Consistent

end Sink

end FbThrift
