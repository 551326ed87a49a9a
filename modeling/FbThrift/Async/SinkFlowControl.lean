import FbThrift.Async.ServerSinkRules

/-!
# Flow control of a sink

A client's and a server's bridge are joined by two channels that keep the order of the calls.
What the client pushes arrives in its order, and credits are neither lost nor made: with what
the server has counted and not yet given back, a buffer's worth is always on its way, held by the
client or spent on payloads that wait.
-/

namespace FbThrift

namespace Sink

variable {π ε : Type}

/-- The bridges, the calls on their way, and whether the transport knows the stream on a side.  It
frees the stream with the call that ends it, and drops what arrives for it later. -/
structure State (π ε : Type) where
  client : ClientSinkBridge π ε
  server : ServerSinkBridge π ε
  toServer : List (ServerCall π ε)
  toClient : List (ClientCall π ε)
  clientStream : Bool
  serverStream : Bool

inductive Event (π ε : Type) where
  /-- A step of `sink`. -/
  | sink
  /-- The client's generator yields an item or is done. -/
  | generator (item : Option (Try π ε))
  /-- The client's generator throws. -/
  | generatorThrows
  | cancel
  /-- A step of the client's event base. -/
  | processServerMessages
  | toClient
  /-- A step of `start`. -/
  | start
  /-- A step of the server's generator. -/
  | makeGenerator
  | next
  | cancelNext
  /-- The consumer returns. -/
  | respond (response : Except ε π)
  /-- A step of the server's event base. -/
  | processClientMessages
  | toServer

namespace State

def initial (π ε : Type) (bufferSize : UInt64) : State π ε where
  client := .initial π ε
  server := .initial π ε bufferSize
  toServer := []
  toClient := []
  clientStream := true
  serverStream := true

/-- The transport takes a call of the client's bridge. -/
def callServer (s : State π ε) : Option (ServerCall π ε) → State π ε
  | none => s
  | some call =>
    { s with
      toServer := s.toServer ++ [call], clientStream := s.clientStream && !call.isError }

/-- The transport takes a call of the server's bridge. -/
def callClient (s : State π ε) : Option (ClientCall π ε) → State π ε
  | none => s
  | some call =>
    { s with
      toClient := s.toClient ++ [call], serverStream := s.serverStream && !call.isFinal }

/-- A call arrives at the client. -/
def arriveAtClient (s : State π ε) : State π ε :=
  match s.toClient with
  | [] => s
  | call :: calls =>
    if s.clientStream then
      { s with
        client := s.client.receive call
        toClient := calls
        clientStream := !call.isFinal }
    else { s with toClient := calls }

/-- A call arrives at the server. -/
def arriveAtServer (s : State π ε) : State π ε :=
  match s.toServer with
  | [] => s
  | call :: calls =>
    if s.serverStream then
      { s with
        server := s.server.receive call
        toServer := calls
        serverStream := !call.isError }
    else { s with toServer := calls }

def step (canceled : ε) (s : State π ε) : Event π ε → State π ε
  | .sink => { s with client := s.client.advance canceled }
  | .generator item => { s with client := s.client.yield item }
  | .generatorThrows => { s with client := { s.client with sink := .ended } }
  | .cancel => { s with client := s.client.cancel }
  | .processServerMessages =>
    let (client, call) := s.client.processServerMessages
    callServer { s with client := client } call
  | .toClient => s.arriveAtClient
  | .start => { s with server := s.server.advanceStart }
  | .makeGenerator => { s with server := s.server.makeGenerator }
  | .next => { s with server := s.server.next }
  | .cancelNext => { s with server := s.server.cancelNext }
  | .respond response => { s with server := { s.server with start := .responded response } }
  | .processClientMessages =>
    let (server, call) := s.server.processClientMessages
    callClient { s with server := server } call
  | .toServer => s.arriveAtServer

/-- The events that can happen.  An event base finishes a task before the transport calls, and
the consumer does nothing while it waits for its generator. -/
def Allowed (s : State π ε) : Event π ε → Prop
  | .sink | .cancel | .start => True
  | .generator _ | .generatorThrows => s.client.sink.Asks
  | .processServerMessages => 0 < s.client.serverQueue.tasks + s.client.serverQueue.phase.running
  | .toClient => s.client.serverQueue.phase.running = 0
  | .makeGenerator | .cancelNext => s.server.generator.Running
  | .next | .respond _ => s.server.start.Consumes ∧ ¬ s.server.generator.Running
  | .processClientMessages => 0 < s.server.clientQueue.tasks + s.server.clientQueue.phase.running
  | .toServer => s.server.clientQueue.phase.running = 0

instance (s : State π ε) : ∀ event, Decidable (s.Allowed event)
  | .sink | .cancel | .start => isTrue trivial
  | .generator _ | .generatorThrows => inferInstanceAs (Decidable s.client.sink.Asks)
  | .processServerMessages => inferInstanceAs (Decidable (0 < _))
  | .toClient => inferInstanceAs (Decidable (_ = 0))
  | .makeGenerator | .cancelNext => inferInstanceAs (Decidable s.server.generator.Running)
  | .next | .respond _ =>
    inferInstanceAs (Decidable (s.server.start.Consumes ∧ ¬ s.server.generator.Running))
  | .processClientMessages => inferInstanceAs (Decidable (0 < _))
  | .toServer => inferInstanceAs (Decidable (_ = 0))

end State

def Try.payload? : Try π ε → Option π
  | value payload => some payload
  | _ => none

/-! ## What is safe -/

namespace State

/-- Nothing is on its way and no event base has anything to do. -/
def Quiet (s : State π ε) : Prop :=
  s.toServer = [] ∧ s.toClient = [] ∧ s.client.serverQueue.Quiet ∧ s.server.clientQueue.Quiet

/-- The client waits for credits, the server's generator for payloads, and nothing happens. -/
def Stuck (s : State π ε) : Prop :=
  s.client.sink = .parked .credits ∧ s.client.clientQueue.posted = false ∧
    (∃ counter, s.server.generator = .running (.parked counter)) ∧
    s.server.serverQueue.posted = false ∧ s.Quiet

/-- The response was given or the client has pushed an error. -/
def Over (s : State π ε) : Prop :=
  s.server.start = .ended ∨ ∃ message ∈ s.client.pushed, message.call.isError

/-- What holds in every state of a sink. -/
structure Safe (bufferSize : UInt64) (s : State π ε) : Prop where
  /-- The client pays for its payloads with the credits that it was called with. -/
  withinCredit : payloads s.client.pushed ≤ credited (s.client.received.map ClientCall.message)
  buffered : payloads s.client.pushed ≤ s.server.consumed + bufferSize.toNat
  inOrder : s.server.yielded.filterMap Try.payload? <+:
    s.client.pushed.filterMap ClientMessage.payload?
  terminal : ∀ message ∈ s.client.pushed.dropLast, message.payload?.isSome
  oneFinal : s.client.received.countP ClientCall.isFinal ≤ 1
  clientCloses : s.client.closes ≤ 1
  serverCloses : s.server.closes ≤ 1
  closed : s.Quiet → s.Over → s.client.closes = 1 ∧ s.server.closes = 1
  notStuck : ¬ s.Stuck

end State

/-! ## The invariant -/

theorem payloads_message (calls : List (ClientMessage π ε)) :
    payloads ((calls.map ClientMessage.call).map ServerCall.message) = payloads calls := by
  rw [payloads, payloads, List.map_map, List.countP_map]
  apply List.countP_congr
  intro message _
  rcases message with (payload | error | _) | _ <;> exact Iff.rfl

theorem payloads_le_of_prefix {xs ys : List (ClientMessage π ε)} (order : xs <+: ys) :
    payloads xs ≤ payloads ys := order.sublist.countP_le

/-- What was pushed arrived or is on its way, as far as nobody has closed. -/
structure Carries (serverOpen clientOpen : Bool)
    (pushed underway toServer received : List (ServerCall π ε)) : Prop where
  arrived : received <+: pushed
  sent : serverOpen → received ++ toServer ++ underway <+: pushed
  complete : serverOpen → clientOpen → received ++ toServer ++ underway = pushed

namespace Carries

variable {serverOpen clientOpen : Bool}
variable {pushed underway toServer received : List (ServerCall π ε)} {call : ServerCall π ε}

theorem push (carries : Carries serverOpen true pushed underway toServer received)
    (call : ServerCall π ε) :
    Carries serverOpen true (pushed ++ [call]) (underway ++ [call]) toServer received where
  arrived := carries.arrived.trans (List.prefix_append _ _)
  sent isOpen := by
    rw [← List.append_assoc, carries.complete isOpen rfl]
  complete isOpen _ := by
    rw [← List.append_assoc, carries.complete isOpen rfl]

/-- The queue of a closed bridge takes nothing. -/
theorem lose (carries : Carries serverOpen false pushed underway toServer received)
    (call : ServerCall π ε) :
    Carries serverOpen false (pushed ++ [call]) underway toServer received where
  arrived := carries.arrived.trans (List.prefix_append _ _)
  sent isOpen := (carries.sent isOpen).trans (List.prefix_append _ _)
  complete _ := nofun

theorem pass (carries : Carries serverOpen clientOpen pushed (call :: underway) toServer received) :
    Carries serverOpen clientOpen pushed underway (toServer ++ [call]) received where
  arrived := carries.arrived
  sent isOpen := by
    have sent := carries.sent isOpen
    simpa using sent
  complete isOpen isOpen' := by
    have complete := carries.complete isOpen isOpen'
    simpa using complete

theorem closeClient (carries : Carries serverOpen clientOpen pushed underway toServer received) :
    Carries serverOpen false pushed [] toServer received where
  arrived := carries.arrived
  sent isOpen := by
    rw [List.append_nil]
    exact (List.prefix_append _ _).trans (carries.sent isOpen)
  complete _ := nofun

theorem arrive (carries : Carries true clientOpen pushed underway (call :: toServer) received) :
    Carries true clientOpen pushed underway toServer (received ++ [call]) where
  arrived := by
    have sent := carries.sent rfl
    rw [List.append_cons, List.append_assoc] at sent
    exact (List.prefix_append _ _).trans sent
  sent isOpen := by
    have sent := carries.sent isOpen
    rwa [List.append_cons] at sent
  complete isOpen isOpen' := by
    have complete := carries.complete isOpen isOpen'
    rwa [List.append_cons] at complete

theorem closeServer (carries : Carries serverOpen clientOpen pushed underway toServer received)
    (toServer' : List (ServerCall π ε)) :
    Carries false clientOpen pushed underway toServer' received where
  arrived := carries.arrived
  sent := nofun
  complete := nofun

end Carries

namespace State

/-- The invariant of all runs. -/
structure Consistent (bufferSize : UInt64) (s : State π ε) : Prop where
  bufferSize : s.server.bufferSize = bufferSize
  client : s.client.Consistent
  server : s.server.Consistent
  clientStream : s.clientStream = s.client.serverCallback
  serverStream : s.serverStream = s.server.clientCallback
  carries : Carries s.server.clientCallback s.client.serverCallback
    (s.client.pushed.map ClientMessage.call)
    (s.client.serverQueue.underway.map ClientMessage.call) s.toServer s.server.received
  positive : ∀ n, .onSinkRequestN n ∈ s.toClient → 0 < n.toInt
  passed : credited (s.client.received.map ClientCall.message) +
    credited (s.toClient.map ClientCall.message) ≤ s.server.passed
  balanced : s.client.serverCallback → s.server.clientCallback →
    s.server.generator.counter.isSome → s.server.sinkComplete = false →
    credited (s.client.received.map ClientCall.message) +
      credited (s.toClient.map ClientCall.message) = s.server.passed
  going : s.server.clientCallback → ∀ call ∈ s.toClient, call.isFinal = false
  unerring : s.client.serverCallback → ∀ call ∈ s.toServer, call.isError = false
  final : s.server.clientCallback = false → s.client.serverCallback = false ∨
    ∃ call ∈ s.toClient, call.isFinal
  error : s.client.serverCallback = false → s.server.clientCallback = false ∨
    ∃ call ∈ s.toServer, call.isError
  consumes : s.server.generator.Running → s.server.start.Consumes
  rested : s.server.clientQueue.phase = .idle → s.server.credits = 0

namespace Consistent

variable {bufferSize : UInt64} {s : State π ε}

theorem initial (positive : 0 < bufferSize.toNat) (small : bufferSize.toNat < 2 ^ 31) :
    (State.initial π ε bufferSize).Consistent bufferSize where
  bufferSize := rfl
  client := .initial
  server := .initial positive small
  clientStream := rfl
  serverStream := rfl
  carries := ⟨List.prefix_rfl, fun _ => List.prefix_rfl, fun _ _ => rfl⟩
  positive := nofun
  passed := by
    change (0 : Int) ≤ bufferSize.toNat * 0 + 0 - 0 - 0
    omega
  balanced _ _ _ _ := by
    change (0 : Int) = bufferSize.toNat * 0 + 0 - 0 - 0
    omega
  going _ := nofun
  unerring _ := nofun
  final := nofun
  error := nofun
  consumes := nofun
  rested _ := rfl

/-! ### Bounds -/

theorem outstanding_le (ok : s.Consistent bufferSize) :
    s.server.credits.toNat + credited s.server.clientQueue.underway +
      credited (s.toClient.map ClientCall.message) + s.server.generator.counted +
      credited (s.client.received.map ClientCall.message) ≤
        s.server.bufferSize.toNat + s.server.consumed := by
  have passed := ok.passed
  rw [ServerSinkBridge.passed, ServerSinkBridge.given] at passed
  have begun : s.server.bufferSize.toNat * s.server.start.begun ≤ s.server.bufferSize.toNat := by
    cases s.server.start with
    | begin => exact (Int.mul_zero _).trans_le (Int.natCast_nonneg _)
    | _ => exact (Int.mul_one _).le
  omega

theorem consumed_le (ok : s.Consistent bufferSize) :
    s.server.consumed ≤ payloads s.client.pushed := by
  have covered := ok.server.consumes.covered
  have yielded := payloads_le_of_prefix ok.server.yields.inOrder
  have arrived := payloads_le_of_prefix (ok.carries.arrived.map ServerCall.message)
  rw [payloads_message] at arrived
  omega

theorem credited_toClient_nonneg (ok : s.Consistent bufferSize) :
    0 ≤ credited (s.toClient.map ClientCall.message) := by
  refine credited_nonneg fun n listed => ?_
  obtain ⟨call, inside, same⟩ := List.mem_map.mp listed
  cases call <;> cases same
  exact ok.positive n inside

theorem payloads_le (ok : s.Consistent bufferSize) : payloads s.client.pushed +
    credited s.client.clientQueue.queue.held ≤
      credited (s.client.received.map ClientCall.message) :=
  ok.client.pays.covered

theorem clientFits (ok : s.Consistent bufferSize) :
    credited s.client.clientQueue.queue.held < 2 ^ 64 := by
  have outstanding := ok.outstanding_le
  have consumed := ok.consumed_le
  have paid := ok.payloads_le
  have toClient := ok.credited_toClient_nonneg
  have underway := credited_nonneg ok.server.responds.positive
  have counted := ok.server.consumes.counts.nonneg
  have small := ok.server.sized.2
  omega

theorem serverFits (ok : s.Consistent bufferSize) :
    s.server.credits.toNat + credited s.server.clientQueue.underway < 2 ^ 31 := by
  have outstanding := ok.outstanding_le
  have consumed := ok.consumed_le
  have paid := ok.payloads_le
  have held := credited_nonneg ok.client.pays.positive
  have toClient := ok.credited_toClient_nonneg
  have counted := ok.server.consumes.counts.nonneg
  have small := ok.server.sized.2
  omega

/-! ### Steps -/

theorem clientMoves (ok : s.Consistent bufferSize)
    {queue : BatonQueue (ServerMessage π ε)} {sink : SinkAt π ε} {cancelled : Bool}
    (client : ClientSinkBridge.Consistent { s.client with
      clientQueue := queue, clientCancelled := cancelled, sink := sink }) :
    Consistent bufferSize { s with client := { s.client with
      clientQueue := queue, clientCancelled := cancelled, sink := sink } } where
  bufferSize := ok.bufferSize
  client := client
  server := ok.server
  clientStream := ok.clientStream
  serverStream := ok.serverStream
  carries := ok.carries
  positive := ok.positive
  passed := ok.passed
  balanced := ok.balanced
  going := ok.going
  unerring := ok.unerring
  final := ok.final
  error := ok.error
  consumes := ok.consumes
  rested := ok.rested

theorem clientPushes (ok : s.Consistent bufferSize) {message : ClientMessage π ε}
    {sink : SinkAt π ε}
    (client : ClientSinkBridge.Consistent { s.client.clientPush message with sink := sink }) :
    Consistent bufferSize
      { s with client := { s.client.clientPush message with sink := sink } } where
  bufferSize := ok.bufferSize
  client := client
  server := ok.server
  clientStream := ok.clientStream
  serverStream := ok.serverStream
  carries := by
    have carries := ok.carries
    change Carries s.server.clientCallback s.client.serverCallback
      ((s.client.pushed ++ [message]).map ClientMessage.call)
      ((s.client.serverQueue.push message).underway.map ClientMessage.call)
      s.toServer s.server.received
    rcases Bool.eq_false_or_eq_true s.client.serverCallback with isOpen | isClosed
    · rw [TaskQueue.underway_push (ok.client.closes.awake isOpen), List.map_append, List.map_append]
      rw [isOpen] at carries ⊢
      exact carries.push _
    · rw [TaskQueue.push_closed (ok.client.closes.closed isClosed).1, List.map_append]
      rw [isClosed] at carries ⊢
      exact carries.lose _
  positive := ok.positive
  passed := ok.passed
  balanced := ok.balanced
  going := ok.going
  unerring := ok.unerring
  final := ok.final
  error := ok.error
  consumes := ok.consumes
  rested := ok.rested

theorem sink (ok : s.Consistent bufferSize) (canceled : ε) :
    (s.step canceled .sink).Consistent bufferSize := by
  have client := ok.client.advance ok.clientFits canceled
  change Consistent bufferSize { s with client := s.client.advance canceled }
  rcases ClientSinkBridge.Consistent.advance_cases s.client canceled with
    ⟨queue, sink, moved⟩ | ⟨message, sink, pushed⟩
  · rw [moved] at client ⊢
    exact ok.clientMoves client
  · rw [pushed] at client ⊢
    exact ok.clientPushes client

theorem generator (ok : s.Consistent bufferSize) (canceled : ε) (item : Option (Try π ε)) :
    (s.step canceled (.generator item)).Consistent bufferSize := by
  have client := ok.client.yield item
  change Consistent bufferSize { s with client := s.client.yield item }
  unfold ClientSinkBridge.yield at client ⊢
  split at client
  next => exact ok.clientMoves client
  next => exact ok

theorem cancel (ok : s.Consistent bufferSize) (canceled : ε) :
    (s.step canceled .cancel).Consistent bufferSize := by
  have client := ok.client.cancel
  change Consistent bufferSize { s with client := s.client.cancel }
  unfold ClientSinkBridge.cancel at client ⊢
  split at client
  next => exact ok.clientMoves client
  next => exact ok.clientMoves client

theorem processServerMessages (ok : s.Consistent bufferSize) (canceled : ε)
    (task : 0 < s.client.serverQueue.tasks + s.client.serverQueue.phase.running) :
    (s.step canceled .processServerMessages).Consistent bufferSize := by
  have client := ok.client.processServerMessages task
  have carries := ok.carries
  change Consistent bufferSize (callServer { s with client := s.client.processServerMessages.1 }
    s.client.processServerMessages.2)
  rcases ok.client.processServerMessages_cases task with
    ⟨queue, turned, opened, closed⟩ | ⟨isOpen, queue, message, awake, underway, turned⟩
  · rw [turned] at client ⊢
    refine { ok with client := client, carries := ?_ }
    change Carries s.server.clientCallback s.client.serverCallback
      (s.client.pushed.map ClientMessage.call) (queue.underway.map ClientMessage.call)
      s.toServer s.server.received
    rcases Bool.eq_false_or_eq_true s.client.serverCallback with isOpen | isClosed
    · rwa [(opened isOpen).2]
    · rw [isClosed] at carries ⊢
      rw [TaskQueue.underway, (closed isClosed).1, (closed isClosed).2]
      exact carries.closeClient
  · rw [turned] at client ⊢
    rw [underway, List.map_cons, isOpen] at carries
    have passed := carries.pass
    rcases Bool.eq_false_or_eq_true message.call.isError with error | noError
    · rw [if_pos error] at client ⊢
      exact
        { ok with
          client := client
          clientStream := by
            change (s.clientStream && !message.call.isError) = false
            rw [error]
            exact Bool.and_false _
          carries := passed.closeClient
          balanced := by rintro ⟨⟩
          unerring := by rintro ⟨⟩
          final := fun _ => .inl rfl
          error := fun _ => .inr ⟨_, List.mem_append_right _ (List.mem_singleton.mpr rfl), error⟩ }
    · rw [if_neg (Bool.eq_false_iff.mp noError)] at client ⊢
      refine
        { ok with
          client := client
          clientStream := ?_
          carries := ?_
          unerring := fun _ call listed => ?_
          error := fun isClosed => ?_ }
      · change (s.clientStream && !message.call.isError) = s.client.serverCallback
        rw [noError, ok.clientStream]
        exact Bool.and_true _
      · change Carries s.server.clientCallback s.client.serverCallback
          (s.client.pushed.map ClientMessage.call) (queue.underway.map ClientMessage.call)
          (s.toServer ++ [message.call]) s.server.received
        rwa [isOpen]
      · rcases List.mem_append.mp listed with earlier | last
        · exact ok.unerring isOpen call earlier
        · rw [List.mem_singleton.mp last, noError]
      · change s.client.serverCallback = false at isClosed
        rw [isOpen] at isClosed
        cases isClosed

/-- A call arrives at the client. -/
theorem toClient (ok : s.Consistent bufferSize) (canceled : ε) :
    (s.step canceled .toClient).Consistent bufferSize := by
  change Consistent bufferSize s.arriveAtClient
  unfold arriveAtClient
  cases arriving : s.toClient with
  | nil => exact ok
  | cons call calls =>
    have positive : ∀ n, .onSinkRequestN n ∈ calls → 0 < n.toInt := fun n listed =>
      ok.positive n (by rw [arriving]; exact List.mem_cons_of_mem _ listed)
    have passed := ok.passed
    have balanced := ok.balanced
    have going := ok.going
    have final := ok.final
    rw [arriving, List.map_cons, credited_cons] at passed balanced
    rw [arriving] at going final
    dsimp only
    split
    next isOpen =>
      rw [ok.clientStream] at isOpen
      have given : ∀ n, call = .onSinkRequestN n → 0 < n.toInt := fun n same =>
        ok.positive n (by rw [arriving, same]; exact List.mem_cons_self)
      have client := ok.client.receive isOpen given
      have moved : credited ((s.client.received ++ [call]).map ClientCall.message) =
          credited (s.client.received.map ClientCall.message) + call.message.credits := by
        rw [List.map_append, credited_append]
        exact congrArg _ (Int.add_zero _)
      have received : (s.client.receive call).received = s.client.received ++ [call] := by
        unfold ClientSinkBridge.receive
        dsimp only
        split <;> rfl
      have passed' : credited ((s.client.receive call).received.map ClientCall.message) +
          credited (calls.map ClientCall.message) ≤ s.server.passed := by
        rw [received, moved]
        omega
      rcases Bool.eq_false_or_eq_true call.isFinal with isFinal | noFinal
      · have closedServer : s.server.clientCallback = false := by
          by_contra isOpen
          rw [going (by simpa using isOpen) call List.mem_cons_self] at isFinal
          cases isFinal
        have closed : s.client.receive call = ClientSinkBridge.close { s.client with
            clientQueue := s.client.clientQueue.push call.message
            received := s.client.received ++ [call]
            serverCancelled := true } := by
          unfold ClientSinkBridge.receive
          exact if_pos isFinal
        rw [closed] at client passed' ⊢
        exact
          { bufferSize := ok.bufferSize
            client := client
            server := ok.server
            clientStream := by rw [isFinal]; rfl
            serverStream := ok.serverStream
            carries := ok.carries.closeClient
            positive := positive
            passed := passed'
            balanced := nofun
            going := fun isOpen other listed =>
              going isOpen other (List.mem_cons_of_mem _ listed)
            unerring := nofun
            final := fun _ => .inl rfl
            error := fun _ => .inl closedServer
            consumes := ok.consumes
            rested := ok.rested }
      · have same : s.client.receive call = { s.client with
            clientQueue := s.client.clientQueue.push call.message
            received := s.client.received ++ [call] } := by
          unfold ClientSinkBridge.receive
          exact if_neg (Bool.eq_false_iff.mp noFinal)
        rw [same] at client passed' ⊢
        exact
          { bufferSize := ok.bufferSize
            client := client
            server := ok.server
            clientStream := by rw [noFinal]; exact isOpen.symm
            serverStream := ok.serverStream
            carries := ok.carries
            positive := positive
            passed := passed'
            balanced := fun isOpen isOpen' live going => by
              have balanced := balanced isOpen isOpen' live going
              change credited ((s.client.received ++ [call]).map ClientCall.message) +
                credited (calls.map ClientCall.message) = s.server.passed
              rw [moved]
              omega
            going := fun isOpen other listed =>
              going isOpen other (List.mem_cons_of_mem _ listed)
            unerring := ok.unerring
            final := fun isClosed => by
              rcases final isClosed with closed | ⟨other, listed, isFinal⟩
              · exact .inl closed
              · rcases List.mem_cons.mp listed with rfl | later
                · rw [noFinal] at isFinal
                  cases isFinal
                · exact .inr ⟨other, later, isFinal⟩
            error := ok.error
            consumes := ok.consumes
            rested := ok.rested }
    next isClosed =>
      rw [ok.clientStream] at isClosed
      have nonneg : 0 ≤ call.message.credits := by
        cases call with
        | onSinkRequestN n =>
          exact (ok.positive n (by rw [arriving]; exact List.mem_cons_self)).le
        | onFinalResponse payload => exact Int.le_refl 0
        | onFinalResponseError error => exact Int.le_refl 0
      exact
        { bufferSize := ok.bufferSize
          client := ok.client
          server := ok.server
          clientStream := ok.clientStream
          serverStream := ok.serverStream
          carries := ok.carries
          positive := positive
          passed := by
            change credited (s.client.received.map ClientCall.message) +
              credited (calls.map ClientCall.message) ≤ s.server.passed
            omega
          balanced := fun isOpen => absurd isOpen isClosed
          going := fun isOpen other listed => going isOpen other (List.mem_cons_of_mem _ listed)
          unerring := ok.unerring
          final := fun _ => .inl (Bool.eq_false_iff.mpr isClosed)
          error := ok.error
          consumes := ok.consumes
          rested := ok.rested }

/-- The server does nothing that the client sees. -/
theorem serverMoves (ok : s.Consistent bufferSize) {server : ServerSinkBridge π ε}
    (moved : server.Consistent ∧ ServerSinkBridge.Passes s.server server 0)
    (frame : ServerSinkBridge.Frame s.server server)
    (consumes : server.generator.Running → server.start.Consumes) :
    Consistent bufferSize { s with server := server } where
  bufferSize := frame.bufferSize.trans ok.bufferSize
  client := ok.client
  server := moved.1
  clientStream := ok.clientStream
  serverStream := ok.serverStream.trans frame.clientCallback.symm
  carries := by
    rw [frame.clientCallback, frame.received]
    exact ok.carries
  positive := ok.positive
  passed := by
    have grows := moved.2.grows
    rw [Int.add_zero] at grows
    exact ok.passed.trans grows
  balanced isOpen isOpen' live going := by
    rw [moved.2.exact isOpen' live going, Int.add_zero]
    exact ok.balanced isOpen (frame.clientCallback ▸ isOpen') (frame.live live)
      (frame.sinkComplete ▸ going)
  going isOpen := ok.going (frame.clientCallback ▸ isOpen)
  unerring := ok.unerring
  final isClosed := ok.final (frame.clientCallback ▸ isClosed)
  error isClosed := by
    rw [frame.clientCallback]
    exact ok.error isClosed
  consumes := consumes
  rested idle := by
    rw [frame.credits]
    exact ok.rested (frame.phase ▸ idle)

theorem processClientMessages (ok : s.Consistent bufferSize) (canceled : ε)
    (task : 0 < s.server.clientQueue.tasks + s.server.clientQueue.phase.running) :
    (s.step canceled .processClientMessages).Consistent bufferSize := by
  have calls := ok.server.processClientMessages task ok.serverFits
  change Consistent bufferSize (callClient { s with server := s.server.processClientMessages.1 }
    s.server.processClientMessages.2)
  rcases called : s.server.processClientMessages with ⟨server, _ | call⟩
  all_goals rw [called] at calls
  · have same : server.clientCallback = s.server.clientCallback :=
      calls.stays.trans (Bool.and_true _)
    exact
      { ok with
        bufferSize := calls.bufferSize.trans ok.bufferSize
        server := calls.consistent
        serverStream := ok.serverStream.trans same.symm
        carries := by
          change Carries server.clientCallback s.client.serverCallback
            (s.client.pushed.map ClientMessage.call)
            (s.client.serverQueue.underway.map ClientMessage.call) s.toServer server.received
          rw [same, calls.received]
          exact ok.carries
        passed := by
          have grows : s.server.passed + 0 ≤ server.passed := calls.passes.grows
          have passed := ok.passed
          change credited (s.client.received.map ClientCall.message) +
            credited (s.toClient.map ClientCall.message) ≤ server.passed
          omega
        balanced := fun clientOpen stillOpen live going => by
          have balanced := ok.balanced clientOpen (same ▸ stillOpen) (calls.generator ▸ live)
            (calls.sinkComplete ▸ going)
          have exact_ : server.passed = s.server.passed + 0 :=
            calls.passes.exact stillOpen live going
          change credited (s.client.received.map ClientCall.message) +
            credited (s.toClient.map ClientCall.message) = server.passed
          omega
        going := fun stillOpen => ok.going (same ▸ stillOpen)
        final := fun isClosed => ok.final (same ▸ isClosed)
        error := fun isClosed => by
          change server.clientCallback = false ∨ _
          rw [same]
          exact ok.error isClosed
        consumes := fun running => by
          change server.start.Consumes
          rw [calls.start]
          exact ok.consumes (calls.generator ▸ running)
        rested := calls.rested ok.rested }
  · have isOpen : s.server.clientCallback := calls.isOpen call rfl
    have stays : server.clientCallback = !call.isFinal := by
      have stays := calls.stays
      rw [isOpen] at stays
      exact stays
    have last : ServerSinkBridge.callCredits (some call) = call.message.credits := Int.add_zero _
    have grows : s.server.passed + call.message.credits ≤ server.passed := by
      rw [← last]
      exact calls.passes.grows
    have exact_ : server.clientCallback → server.generator.counter.isSome →
        server.sinkComplete = false → server.passed = s.server.passed + call.message.credits := by
      rw [← last]
      exact calls.passes.exact
    have more : credited ((s.toClient ++ [call]).map ClientCall.message) =
        credited (s.toClient.map ClientCall.message) + call.message.credits := by
      rw [List.map_append, credited_append]
      exact congrArg _ (Int.add_zero _)
    have passed := ok.passed
    exact
      { bufferSize := calls.bufferSize.trans ok.bufferSize
        client := ok.client
        server := calls.consistent
        clientStream := ok.clientStream
        serverStream := by
          change (s.serverStream && !call.isFinal) = server.clientCallback
          rw [ok.serverStream, isOpen, stays]
          rfl
        carries := by
          have carries := ok.carries
          change Carries server.clientCallback s.client.serverCallback
            (s.client.pushed.map ClientMessage.call)
            (s.client.serverQueue.underway.map ClientMessage.call) s.toServer server.received
          rw [calls.received]
          rcases Bool.eq_false_or_eq_true server.clientCallback with stillOpen | isClosed
          · rw [stillOpen]
            rwa [isOpen] at carries
          · rw [isClosed]
            exact carries.closeServer _
        positive := fun n listed => by
          rcases List.mem_append.mp listed with earlier | new
          · exact ok.positive n earlier
          · exact calls.positive n (congrArg some (List.mem_singleton.mp new).symm)
        passed := by
          change credited (s.client.received.map ClientCall.message) +
            credited ((s.toClient ++ [call]).map ClientCall.message) ≤ server.passed
          rw [more]
          omega
        balanced := fun clientOpen stillOpen live going => by
          have balanced := ok.balanced clientOpen isOpen (calls.generator ▸ live)
            (calls.sinkComplete ▸ going)
          have same := exact_ stillOpen live going
          change credited (s.client.received.map ClientCall.message) +
            credited ((s.toClient ++ [call]).map ClientCall.message) = server.passed
          rw [more]
          omega
        going := fun stillOpen other listed => by
          change server.clientCallback at stillOpen
          rw [stays] at stillOpen
          rcases List.mem_append.mp listed with earlier | new
          · exact ok.going isOpen other earlier
          · rw [List.mem_singleton.mp new]
            simpa using stillOpen
        unerring := ok.unerring
        final := fun isClosed => by
          change server.clientCallback = false at isClosed
          rw [stays] at isClosed
          exact .inr ⟨call, List.mem_append_right _ (List.mem_singleton.mpr rfl),
            by simpa using isClosed⟩
        error := fun isClosed => by
          rcases ok.error isClosed with closed | error
          · rw [isOpen] at closed
            cases closed
          · exact .inr error
        consumes := fun running => by
          change server.start.Consumes
          rw [calls.start]
          exact ok.consumes (calls.generator ▸ running)
        rested := calls.rested ok.rested }

/-- A call arrives at the server. -/
theorem toServer (ok : s.Consistent bufferSize) (canceled : ε) :
    (s.step canceled .toServer).Consistent bufferSize := by
  change Consistent bufferSize s.arriveAtServer
  unfold arriveAtServer
  cases arriving : s.toServer with
  | nil => exact ok
  | cons call calls =>
    have carries := ok.carries
    have error := ok.error
    have unerring := ok.unerring
    rw [arriving] at carries error unerring
    dsimp only
    split
    next isOpen =>
      rw [ok.serverStream] at isOpen
      rw [isOpen] at carries
      obtain ⟨server, passes⟩ := ok.server.receive isOpen call
      have arrived := carries.arrive
      rcases Bool.eq_false_or_eq_true call.isError with isError | noError
      · have closed : s.server.receive call = ServerSinkBridge.close { s.server with
            serverQueue := s.server.serverQueue.push call.message
            received := s.server.received ++ [call] } := by
          unfold ServerSinkBridge.receive
          exact if_pos isError
        have closedClient : s.client.serverCallback = false := by
          by_contra isOpen
          rw [unerring (by simpa using isOpen) call List.mem_cons_self] at isError
          cases isError
        rw [closed] at server passes ⊢
        exact
          { bufferSize := ok.bufferSize
            client := ok.client
            server := server
            clientStream := ok.clientStream
            serverStream := by rw [isError]; rfl
            carries := arrived.closeServer _
            positive := ok.positive
            passed := by
              have grows := passes.grows
              rw [Int.add_zero] at grows
              exact ok.passed.trans grows
            balanced := fun _ => nofun
            going := nofun
            unerring := fun isOpen other listed =>
              unerring isOpen other (List.mem_cons_of_mem _ listed)
            final := fun _ => .inl closedClient
            error := fun _ => .inl rfl
            consumes := ok.consumes
            rested := fun _ => rfl }
      · have same : s.server.receive call = { s.server with
            serverQueue := s.server.serverQueue.push call.message
            received := s.server.received ++ [call]
            sinkComplete := s.server.sinkComplete || call.isComplete } := by
          unfold ServerSinkBridge.receive
          exact if_neg (Bool.eq_false_iff.mp noError)
        rw [same] at server passes ⊢
        exact
          { bufferSize := ok.bufferSize
            client := ok.client
            server := server
            clientStream := ok.clientStream
            serverStream := by rw [noError]; exact isOpen.symm
            carries := by
              rw [← isOpen] at arrived
              exact arrived
            positive := ok.positive
            passed := ok.passed
            balanced := fun clientOpen isOpen live going =>
              ok.balanced clientOpen isOpen live (Bool.or_eq_false_iff.mp going).1
            going := ok.going
            unerring := fun isOpen other listed =>
              unerring isOpen other (List.mem_cons_of_mem _ listed)
            final := ok.final
            error := fun isClosed => by
              rcases error isClosed with closed | ⟨other, listed, isError⟩
              · exact .inl closed
              · rcases List.mem_cons.mp listed with rfl | later
                · rw [noError] at isError
                  cases isError
                · exact .inr ⟨other, later, isError⟩
            consumes := ok.consumes
            rested := ok.rested }
    next isClosed =>
      rw [ok.serverStream] at isClosed
      have isClosed := Bool.eq_false_iff.mpr isClosed
      refine
        { ok with
          carries := ?_
          unerring := fun isOpen other listed =>
            unerring isOpen other (List.mem_cons_of_mem _ listed)
          error := fun _ => .inl isClosed }
      rw [isClosed] at carries ⊢
      exact carries.closeServer _

/-- Each event that may happen keeps the invariant. -/
theorem step (ok : s.Consistent bufferSize) (canceled : ε) {event : Event π ε}
    (allowed : s.Allowed event) : (s.step canceled event).Consistent bufferSize := by
  cases event with
  | sink => exact ok.sink canceled
  | generator item => exact ok.generator canceled item
  | generatorThrows => exact ok.clientMoves (ok.client.throw allowed)
  | cancel => exact ok.cancel canceled
  | processServerMessages => exact ok.processServerMessages canceled allowed
  | toClient => exact ok.toClient canceled
  | start =>
    refine ok.serverMoves ok.server.advanceStart (ServerSinkBridge.frame_advanceStart _)
      fun running => ?_
    exact ServerSinkBridge.advanceStart_consumes ok.consumes running
  | makeGenerator =>
    refine ok.serverMoves ok.server.makeGenerator (ServerSinkBridge.frame_makeGenerator _)
      fun _ => ?_
    rw [ServerSinkBridge.makeGenerator_start]
    exact ok.consumes allowed
  | next =>
    refine ok.serverMoves (ok.server.next allowed.2) (ServerSinkBridge.frame_next _) fun _ => ?_
    rw [ServerSinkBridge.next_start]
    exact allowed.1
  | cancelNext =>
    refine ok.serverMoves (ok.server.cancelNext allowed) (ServerSinkBridge.frame_cancelNext _)
      fun _ => ?_
    rw [ServerSinkBridge.cancelNext_start]
    exact ok.consumes allowed
  | respond response =>
    exact ok.serverMoves (ok.server.respond allowed.1 response)
      ⟨rfl, rfl, rfl, rfl, id, rfl, rfl⟩ fun running => absurd running allowed.2
  | processClientMessages => exact ok.processClientMessages canceled allowed
  | toServer => exact ok.toServer canceled

/-! ### What follows -/

theorem yielded_prefix (ok : s.Consistent bufferSize) : s.server.yielded.filterMap Try.payload? <+:
      s.client.pushed.filterMap ClientMessage.payload? := by
  have yielded := ok.server.yields.inOrder.filterMap ClientMessage.payload?
  have arrived := (ok.carries.arrived.map ServerCall.message).filterMap ClientMessage.payload?
  have order := yielded.trans arrived
  rw [List.filterMap_map, List.map_map, List.filterMap_map] at order
  have items : (ClientMessage.payload? ∘ .payloadOrError : Try π ε → Option π) = Try.payload? := by
    funext item
    cases item <;> rfl
  have messages : (ClientMessage.payload? ∘ ServerCall.message ∘ ClientMessage.call :
      ClientMessage π ε → Option π) = ClientMessage.payload? := by
    funext message
    rcases message with (payload | error | _) | _ <;> rfl
  rwa [items, messages] at order

/-- Behind the response or an error, both ends are closed when nothing moves any more. -/
theorem closed (ok : s.Consistent bufferSize) (quiet : s.Quiet) (isOver : s.Over) :
    s.client.closes = 1 ∧ s.server.closes = 1 := by
  obtain ⟨toServer, toClient, client, server⟩ := quiet
  have both : s.client.serverCallback = false ∧ s.server.clientCallback = false := by
    have error := ok.error
    have final := ok.final
    rw [toServer] at error
    rw [toClient] at final
    have one : s.client.serverCallback = false ∨ s.server.clientCallback = false := by
      by_contra none
      obtain ⟨clientOpen, serverOpen⟩ := not_or.mp none
      rw [Bool.not_eq_false] at clientOpen serverOpen
      rcases isOver with ended | ⟨message, listed, isError⟩
      · obtain ⟨_, listed, _⟩ := ok.server.responds.finished ended serverOpen
        rw [(ok.server.responds.awake serverOpen).underway_eq_nil server] at listed
        cases listed
      · obtain ⟨_, listed, _⟩ := ok.client.closes.erring clientOpen message listed isError
        rw [(ok.client.closes.awake clientOpen).underway_eq_nil client] at listed
        cases listed
    rcases one with isClosed | isClosed
    · exact ⟨isClosed, (error isClosed).resolve_right nofun⟩
    · exact ⟨(final isClosed).resolve_right nofun, isClosed⟩
  exact ⟨(ok.client.closes.closed both.1).2.2, (ok.server.responds.closed both.2).2.2⟩

/-- Where nothing moves, all credits were given and spent, so that the server has counted less
than the client waits for. -/
theorem not_stuck (ok : s.Consistent bufferSize) : ¬ s.Stuck := by
  rintro ⟨atSink, clientAsleep, ⟨counter, atGenerator⟩, serverAsleep, toServer, toClient, client,
    server⟩
  have waiting := ok.client.parks.waiting
  have owns := ok.client.pays.owns 0
  have going := ok.client.pays.going
  rw [atSink] at waiting owns going
  have clientQueue : s.client.clientQueue.queue = .consumer := by
    by_contra up
    rw [(waiting trivial).awake up] at clientAsleep
    cases clientAsleep
  have yields := ok.server.yields
  have settled := ok.server.consumes.settled
  have counts := ok.server.consumes.counts
  have consumes := ok.consumes
  have balanced := ok.balanced
  rw [atGenerator] at yields settled counts consumes balanced
  have serverQueue : s.server.serverQueue.queue = .consumer := by
    by_contra up
    rw [(yields.waiting trivial).awake up] at serverAsleep
    cases serverAsleep
  -- nobody has ended, so nobody has closed
  have payloadsOnly := going rfl
  have carries := ok.carries
  have noError : ∀ call ∈ s.server.received, call.isError = false ∧ call.isComplete = false := by
    intro call listed
    obtain ⟨message, pushed, rfl⟩ := List.mem_map.mp (carries.arrived.subset listed)
    have payload := payloadsOnly message pushed
    rcases message with (payload | error | _) | _
    · exact ⟨rfl, rfl⟩
    · cases payload
    · cases payload
    · cases payload
  have going : s.server.start ≠ .ended := by
    intro ended
    have consumes := consumes trivial
    rw [ended] at consumes
    exact consumes
  have serverOpen : s.server.clientCallback := by
    by_contra isClosed
    obtain ⟨call, listed, error⟩ :=
      ok.server.responds.closedBy going (Bool.eq_false_iff.mpr isClosed)
    rw [(noError call listed).1] at error
    cases error
  have clientOpen : s.client.serverCallback := by
    by_contra isClosed
    have error := ok.error (Bool.eq_false_iff.mpr isClosed)
    rw [toServer, serverOpen] at error
    simp at error
  have incomplete : s.server.sinkComplete = false := by
    rw [ok.server.responds.complete, List.any_eq_false]
    exact fun call listed => by rw [(noError call listed).2]; exact Bool.false_ne_true
  -- every payload was consumed, and all credits were given and spent
  have complete := carries.complete serverOpen clientOpen
  rw [toServer, (ok.client.closes.awake clientOpen).underway_eq_nil client, List.map_nil,
    List.append_nil, List.append_nil] at complete
  have delivers := yields.delivers rfl (by rw [serverQueue]; nofun)
  rw [serverQueue, complete] at delivers
  have consumed : s.server.consumed = payloads s.client.pushed := by
    have settled := settled rfl
    rw [← payloads_message, ← delivers, payloads_append]
    exact settled
  have spent : payloads s.client.pushed = credited (s.client.received.map ClientCall.message) := by
    have owns := owns rfl
    rw [clientQueue] at owns
    change (payloads s.client.pushed : Int) + 0 + 0 = _ at owns
    omega
  have passed := balanced clientOpen serverOpen rfl incomplete
  have begun : s.server.start.begun = 1 := by
    have consumes := consumes trivial
    cases at_ : s.server.start <;> rw [at_] at consumes <;> first | rfl | exact consumes.elim
  rw [toClient, ServerSinkBridge.passed, ServerSinkBridge.given, atGenerator, begun,
    ok.rested server.2, (ok.server.responds.awake serverOpen).underway_eq_nil server] at passed
  change credited (s.client.received.map ClientCall.message) + 0 =
    s.server.bufferSize.toNat * 1 + s.server.consumed - (0 + 0) - counter.toInt at passed
  have counted := (counts counter rfl).2
  have sized := ok.server.sized
  omega

theorem safe (ok : s.Consistent bufferSize) : s.Safe bufferSize where
  withinCredit := by
    have covered := ok.payloads_le
    have held := credited_nonneg ok.client.pays.positive
    omega
  buffered := by
    have outstanding := ok.outstanding_le
    have paid := ok.payloads_le
    have held := credited_nonneg ok.client.pays.positive
    have toClient := ok.credited_toClient_nonneg
    have underway := credited_nonneg ok.server.responds.positive
    have counted := ok.server.consumes.counts.nonneg
    rw [← ok.bufferSize]
    omega
  inOrder := ok.yielded_prefix
  terminal := ok.client.pays.terminal
  oneFinal := ok.client.closes.finals
  clientCloses := by
    rcases Bool.eq_false_or_eq_true s.client.serverCallback with isOpen | isClosed
    · exact (ok.client.closes.unclosed isOpen).trans_le (Nat.zero_le 1)
    · exact (ok.client.closes.closed isClosed).2.2.le
  serverCloses := by
    rcases Bool.eq_false_or_eq_true s.server.clientCallback with isOpen | isClosed
    · exact (ok.server.responds.unclosed isOpen).trans_le (Nat.zero_le 1)
    · exact (ok.server.responds.closed isClosed).2.2.le
  closed := ok.closed
  notStuck := ok.not_stuck

end Consistent

end State

/-- Whatever the generator, the consumer and the threads do, a sink of a buffer of any size is safe
in every state that it reaches. -/
theorem sink_safe {bufferSize : UInt64} (positive : 0 < bufferSize.toNat)
    (small : bufferSize.toNat < 2 ^ 31) {canceled : ε} {events : List (Event π ε)}
    (run : Run (State.step canceled) State.Allowed (State.initial π ε bufferSize) events) :
    (events.foldl (State.step canceled) (State.initial π ε bufferSize)).Safe bufferSize :=
  (run.invariant (State.Consistent.initial positive small) fun _ _ ok allowed =>
    ok.step canceled allowed).safe

/-- A payload on its way to the consumer. -/
def onePayload : List (Event Nat Unit) :=
  [.start, .processClientMessages, .processClientMessages, .processClientMessages,
    .processClientMessages, .toClient, .sink, .sink, .sink, .sink, .generator (some (.value 7)),
    .sink, .sink, .sink, .processServerMessages, .processServerMessages, .processServerMessages,
    .toServer, .next, .makeGenerator, .makeGenerator, .makeGenerator, .makeGenerator]

example : (onePayload.foldl (State.step ()) (State.initial Nat Unit 2)).server.yielded =
    [.value 7] := by decide +kernel

theorem sink_safe_onePayload :
    (onePayload.foldl (State.step ()) (State.initial Nat Unit 2)).Safe 2 := by
  have run : Run (State.step ()) State.Allowed (State.initial Nat Unit 2) onePayload := by
    decide +kernel
  exact sink_safe (by decide) (by decide) run

end Sink

end FbThrift
