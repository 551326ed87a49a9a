import FbThrift.Lib.Endpoint
import FbThrift.Rocket.BiDiServerCallback

/-!
# How a bidirectional stream ends

A client and a server end the two directions of a stream, each by its own calls and by the
frames of the other.  Each side has a log of what it ended and saw.
-/

namespace FbThrift.Rocket

open Endpoint

inductive BiDiDirection where
  | stream
  | sink
  deriving DecidableEq, Repr

/-! ## Logs -/

/-- What a call tells the client callback. -/
def BiDiClientCall.acts : BiDiClientCall → List (Act BiDiDirection)
  | onFirstResponse => []
  | onFirstResponseError => [.seesEnd .stream, .seesEnd .sink]
  | onStreamNext => [.sees .stream]
  | onStreamError => [.seesEnd .stream]
  | onStreamComplete => [.seesEnd .stream]
  | onSinkRequestN _ => [.sees .sink]
  | onSinkCancel => [.seesEnd .sink]
  | send _ => []
  | freeStream => [.frees]
  | close => []

def BiDiClientCall.frame? : BiDiClientCall → Option BiDiFrame
  | send frame => some frame
  | _ => none

/-- The direction of which a client must not make use once it ended. -/
def BiDiClientOp.direction : BiDiClientOp → BiDiDirection
  | onSinkNext | onSinkError _ | onSinkComplete => .sink
  | onStreamRequestN _ | onStreamCancel => .stream

def BiDiClientEvent.acts : BiDiClientEvent → List (Act BiDiDirection)
  | op (.onSinkError _) | op .onSinkComplete => [.terminates .sink]
  | op .onStreamCancel => [.terminates .stream]
  | _ => []

/-- What a call tells the server callback. -/
def BiDiServerCall.acts : BiDiServerCall → List (Act BiDiDirection)
  | onStreamRequestN _ => [.sees .stream]
  | onStreamCancel => [.seesEnd .stream]
  | onSinkNext => [.sees .sink]
  | onSinkError => [.seesEnd .sink]
  | onSinkComplete => [.seesEnd .sink]
  | send _ => []
  | freeStream => [.frees]
  | close => []

def BiDiServerCall.frame? : BiDiServerCall → Option BiDiFrame
  | send frame => some frame
  | _ => none

/-- The direction of a call, unless it is the first response. -/
def BiDiServerOp.direction? : BiDiServerOp → Option BiDiDirection
  | onFirstResponse | onFirstResponseError _ => none
  | onSinkCancel | onSinkRequestN _ => some .sink
  | onStreamNext | onStreamError _ | onStreamComplete => some .stream

def BiDiServerEvent.acts : BiDiServerEvent → List (Act BiDiDirection)
  | op (.onFirstResponseError _) => [.terminates .stream, .terminates .sink]
  | op .onSinkCancel => [.terminates .sink]
  | op (.onStreamError _) | op .onStreamComplete => [.terminates .stream]
  | _ => []

/-! ## The connection -/

/-- The two ends of a stream, what is on its way between them and their logs.  The server holds
the stream until it frees it. -/
structure BiDiConnection where
  client : RocketBiDiServerCallback
  server : RocketBiDiClientCallback
  serverStreamExists : Bool
  toServer : List BiDiFrame
  toClient : List BiDiFrame
  clientLog : List (Act BiDiDirection)
  serverLog : List (Act BiDiDirection)
  deriving DecidableEq, Repr

inductive BiDiConnectionEvent where
  | clientOp (op : BiDiClientOp)
  | clientCallbackReturns
  | firstResponseTimeout
  | deliverToClient
  | serverOp (op : BiDiServerOp)
  | serverCallbackReturns
  | deliverToServer
  deriving DecidableEq, Repr

/-- The directions as they are to one side. -/
def bidiEndpoint (stream sink freed : Bool) : Endpoint BiDiDirection where
  isOpen
    | .stream => stream
    | .sink => sink
  freed := freed

namespace BiDiConnection

def start (initialTokens : Int32) (chunkTimeout : Bool) : BiDiConnection where
  client := .new
  server := .new initialTokens chunkTimeout
  serverStreamExists := true
  toServer := []
  toClient := []
  clientLog := []
  serverLog := []

variable (connection : BiDiConnection)

def clientStep (event : BiDiClientEvent) : BiDiConnection :=
  let (client, calls) := connection.client.step event
  { connection with
    client := client
    toServer := connection.toServer ++ calls.filterMap BiDiClientCall.frame?
    clientLog := connection.clientLog ++ (event.acts ++ calls.flatMap BiDiClientCall.acts) }

def serverStep (event : BiDiServerEvent) : BiDiConnection :=
  let (server, calls) := connection.server.step event
  { connection with
    server := server
    serverStreamExists := connection.serverStreamExists && !calls.contains .freeStream
    toClient := connection.toClient ++ calls.filterMap BiDiServerCall.frame?
    serverLog := connection.serverLog ++ (event.acts ++ calls.flatMap BiDiServerCall.acts) }

/-- Frames come in the order in which they were sent.  Both sides ignore frames of a stream that
they have freed. -/
def step : BiDiConnectionEvent → BiDiConnection
  | .clientOp op => connection.clientStep (.op op)
  | .clientCallbackReturns => connection.clientStep .callbackReturns
  | .firstResponseTimeout => connection.clientStep .firstResponseTimeout
  | .deliverToClient =>
    match connection.toClient with
    | [] => connection
    | frame :: rest => clientStep { connection with toClient := rest } (.handleFrame frame)
  | .serverOp op => connection.serverStep (.op op)
  | .serverCallbackReturns => connection.serverStep .callbackReturns
  | .deliverToServer =>
    match connection.toServer with
    | [] => connection
    | frame :: rest =>
      let connection := { connection with toServer := rest }
      if connection.serverStreamExists then connection.serverStep (.handleFrame frame)
      else connection

/-- A side may use a direction that it has neither ended nor seen end, of a stream that it has
not freed. -/
def MayUse (log : List (Act BiDiDirection)) (direction : BiDiDirection) : Prop :=
  ¬ Closed log direction ∧ .frees ∉ log

instance (log : List (Act BiDiDirection)) (direction : BiDiDirection) :
    Decidable (MayUse log direction) :=
  inferInstanceAs (Decidable (_ ∧ _))

/-- A server gives the first response once, and makes its other calls after it. -/
def AwaitsFirstResponse (server : RocketBiDiClientCallback) : Prop :=
  (server.state = .awaitingFirstResponse ∨ server.state = .cancelledEarly) ∧ server.running = .none

instance (server : RocketBiDiClientCallback) : Decidable (AwaitsFirstResponse server) :=
  inferInstanceAs (Decidable (_ ∧ _))

/-- A client callback has its server callback from the first response on.  Frames and timeouts
wait for callbacks to return. -/
def Allowed : BiDiConnectionEvent → Prop
  | .clientOp op =>
    connection.client.isFirstResponse = false ∧ MayUse connection.clientLog op.direction
  | .clientCallbackReturns => connection.client.running ≠ .none
  | .firstResponseTimeout =>
    connection.client.isFirstResponse = true ∧ connection.client.running = .none
  | .deliverToClient => connection.client.running = .none
  | .serverOp op =>
    match op.direction? with
    | none => AwaitsFirstResponse connection.server ∧ connection.serverStreamExists = true
    | some direction =>
      ¬ AwaitsFirstResponse connection.server ∧ MayUse connection.serverLog direction
  | .serverCallbackReturns => connection.server.running ≠ .none
  | .deliverToServer => connection.server.running = .none

/-- Whether a frame behind the first response ends the stream direction. -/
def endsStream : BiDiFrame → Bool
  | .payload next complete content => !next || complete || content ≠ .value
  | .error _ => true
  | _ => false

/-- A frame that ends the stream direction reaches the client while that direction is open, a
first response that ends it leaves it open until its callback returns, and the server has not
freed a stream that was cancelled early before its callback returns. -/
def Clean : BiDiConnectionEvent → Prop
  | .deliverToClient =>
    connection.client.streamExists = true → connection.client.isFirstResponse = false →
      connection.toClient.head?.any endsStream = true → connection.client.state.isStreamOpen = true
  | .clientCallbackReturns =>
    connection.client.running = .onFirstResponse true → connection.client.state.isStreamOpen = true
  | .serverCallbackReturns =>
    (connection.server.running = .earlyStreamCancel true ∨
      connection.server.running = .earlyStreamCancel false) → connection.serverStreamExists = true
  | _ => True

instance : ∀ event, Decidable (connection.Allowed event) := by
  intro event
  unfold Allowed
  split
  case h_5 op => cases op.direction? <;> infer_instance
  all_goals infer_instance

instance : ∀ event, Decidable (connection.Clean event) := by
  intro event
  unfold Clean
  split <;> infer_instance

/-- Each log is orderly, and a side to which both directions have ended has freed the stream, on
the server as soon as its callback has returned. -/
structure Terminates : Prop where
  client : Orderly connection.clientLog
  server : Orderly connection.serverLog
  clientFrees : (∀ direction, Closed connection.clientLog direction) → .frees ∈ connection.clientLog
  serverFrees : connection.server.running = .none →
    (∀ direction, Closed connection.serverLog direction) → .frees ∈ connection.serverLog

end BiDiConnection

/-! ## Endpoints of a stream -/

section

variable (stream sink freed : Bool)

@[simp] theorem after_stream : (bidiEndpoint stream sink freed).after (.terminates .stream) =
      bidiEndpoint false sink freed ∧
    (bidiEndpoint stream sink freed).after (.seesEnd .stream) = bidiEndpoint false sink freed := by
  constructor <;> exact congrArg (Endpoint.mk · freed) (funext fun d => by cases d <;> rfl)

@[simp] theorem after_sink :
    (bidiEndpoint stream sink freed).after (.terminates .sink) = bidiEndpoint stream false freed ∧
    (bidiEndpoint stream sink freed).after (.seesEnd .sink) = bidiEndpoint stream false freed := by
  constructor <;> exact congrArg (Endpoint.mk · freed) (funext fun d => by cases d <;> rfl)

@[simp] theorem after_sees (direction : BiDiDirection) :
    (bidiEndpoint stream sink freed).after (.sees direction) = bidiEndpoint stream sink freed := rfl

@[simp] theorem after_frees :
    (bidiEndpoint stream sink freed).after .frees = bidiEndpoint false false true :=
  congrArg (Endpoint.mk · true) (funext fun d => by cases d <;> rfl)

@[simp] theorem permits_stream :
    ((bidiEndpoint stream sink freed).Permits (.sees .stream) ↔ stream = true) ∧
    ((bidiEndpoint stream sink freed).Permits (.seesEnd .stream) ↔ stream = true) :=
  ⟨.rfl, .rfl⟩

@[simp] theorem permits_sink :
    ((bidiEndpoint stream sink freed).Permits (.sees .sink) ↔ sink = true) ∧
    ((bidiEndpoint stream sink freed).Permits (.seesEnd .sink) ↔ sink = true) :=
  ⟨.rfl, .rfl⟩

@[simp] theorem permits_terminates (direction : BiDiDirection) :
    (bidiEndpoint stream sink freed).Permits (.terminates direction) := trivial

@[simp] theorem permits_frees :
    (bidiEndpoint stream sink freed).Permits .frees ↔ freed = false := .rfl

end

theorem tracks_start : Tracks ([] : List (Act BiDiDirection)) (bidiEndpoint true true false) := by
  have same : bidiEndpoint true true false = ⟨fun _ => true, false⟩ :=
    congrArg (Endpoint.mk · false) (funext fun d => by cases d <;> rfl)
  rw [same]
  exact tracks_nil

/-- The state of a stream behind its first response, by the directions that are open. -/
def openState : Bool → Bool → BidirectionalStreamState
  | true, true => .streamAndSinkOpen
  | true, false => .onlyStreamOpen
  | false, true => .onlySinkOpen
  | false, false => .closed

section

variable (stream sink : Bool)

@[simp] theorem isStreamOpen_openState : (openState stream sink).isStreamOpen = stream := by
  cases stream <;> cases sink <;> rfl

@[simp] theorem isSinkOpen_openState : (openState stream sink).isSinkOpen = sink := by
  cases stream <;> cases sink <;> rfl

@[simp] theorem isTerminal_openState : (openState stream sink).isTerminal = (!stream && !sink) := by
  cases stream <;> cases sink <;> rfl

@[simp] theorem closeStream_openState :
    (openState stream sink).closeStream = openState false sink := by
  cases stream <;> cases sink <;> rfl

@[simp] theorem closeSink_openState :
    (openState stream sink).closeSink = openState stream false := by
  cases stream <;> cases sink <;> rfl

end

/-- A side frees a stream when none of its directions is open any more. -/
def freesUnless (alive : Bool) : List (Act BiDiDirection) := if alive then [] else [.frees]

theorem ends_stream {act : Act BiDiDirection} (sink : Bool)
    (ends : act = .terminates .stream ∨ act = .seesEnd .stream) :
    (bidiEndpoint true sink false).Follows (act :: freesUnless sink)
      (bidiEndpoint false sink (!sink)) := by
  rcases ends with rfl | rfl <;> cases sink <;> simp [Endpoint.Follows, Run, freesUnless]

theorem ends_sink {act : Act BiDiDirection} (stream : Bool)
    (ends : act = .terminates .sink ∨ act = .seesEnd .sink) :
    (bidiEndpoint stream true false).Follows (act :: freesUnless stream)
      (bidiEndpoint stream false (!stream)) := by
  rcases ends with rfl | rfl <;> cases stream <;> simp [Endpoint.Follows, Run, freesUnless]

/-! ## The client -/

namespace RocketBiDiServerCallback

/-- The directions as they are to the client. -/
def endpoint (callback : RocketBiDiServerCallback) : Endpoint BiDiDirection :=
  bidiEndpoint (callback.streamExists && callback.state.isStreamOpen)
    (callback.streamExists && callback.state.isSinkOpen) (!callback.streamExists)

/-- The callbacks that may run while a stream is open or has ended inside them. -/
def Inside (running : ClientCallbackRunning) (alive : Bool) : Prop :=
  running = .none ∨ running = .onFirstResponse alive

/-- A stream waits for its first response, or exists as long as one of its directions is open, or
is gone. -/
inductive Kept : RocketBiDiServerCallback → Prop
  | first : Kept ⟨.awaitingFirstResponse, true, true, .none⟩
  | live (running : ClientCallbackRunning) (stream sink : Bool)
      (inside : Inside running (stream || sink)) :
      Kept ⟨openState stream sink, stream || sink, false, running⟩
  | gone (state : BidirectionalStreamState) : Kept ⟨state, false, false, .none⟩

/-- What an event does, and what it tells the client callback. -/
def Follows (callback : RocketBiDiServerCallback) (event : BiDiClientEvent) : Prop :=
  (callback.step event).1.Kept ∧ callback.endpoint.Follows
      (event.acts ++ (callback.step event).2.flatMap BiDiClientCall.acts)
      (callback.step event).1.endpoint

@[simp] theorem endpoint_openState (stream sink isFirstResponse : Bool)
    (running : ClientCallbackRunning) :
    endpoint ⟨openState stream sink, stream || sink, isFirstResponse, running⟩ =
      bidiEndpoint stream sink (!(stream || sink)) := by
  cases stream <;> cases sink <;> rfl

@[simp] theorem endpoint_gone (state : BidirectionalStreamState) (isFirstResponse : Bool)
    (running : ClientCallbackRunning) :
    endpoint ⟨state, false, isFirstResponse, running⟩ = bidiEndpoint false false true := rfl

@[simp] theorem noteReturned_true (callback : RocketBiDiServerCallback) :
    callback.noteReturned true = callback := by
  obtain ⟨state, streamExists, isFirstResponse, running⟩ := callback
  cases running <;> simp [noteReturned]

/-- An operation that sends the last frame of a direction frees the stream before it unless the
other direction is open. -/
theorem follows_last {callback : RocketBiDiServerCallback} {op : BiDiClientOp}
    {running : ClientCallbackRunning} (frame : BiDiFrame) (stream sink : Bool)
    (serves : callback.serve op =
      sendAndReturn ⟨openState stream sink, true, false, running⟩ (stream || sink) frame)
    (inside : Inside running true)
    (closes : callback.endpoint.Follows
      ((BiDiClientEvent.op op).acts ++ freesUnless (stream || sink))
      (bidiEndpoint stream sink (!(stream || sink)))) :
    Follows callback (.op op) := by
  unfold Follows step
  simp only [serves]
  cases alive : stream || sink with
  | true =>
    have kept := Kept.live running stream sink
    have same := endpoint_openState stream sink false running
    rw [alive] at closes kept same
    simp only [sendAndReturn, freeStreamIf, noteReturned_true, Bool.not_true,
      Bool.false_eq_true, if_false]
    refine ⟨kept inside, ?_⟩
    rw [same]
    exact closes
  | false =>
    obtain ⟨rfl, rfl⟩ := Bool.or_eq_false_iff.mp alive
    rcases inside with rfl | rfl
    · exact ⟨.live _ false false (.inl rfl), closes⟩
    · exact ⟨.live (.onFirstResponse false) false false (.inr rfl), closes⟩

/-- An operation that only sends a frame. -/
theorem follows_send {callback : RocketBiDiServerCallback} {op : BiDiClientOp}
    {calls : List BiDiClientCall} (kept : callback.Kept)
    (serves : callback.serve op = (callback, calls, true))
    (silent : (BiDiClientEvent.op op).acts ++ calls.flatMap BiDiClientCall.acts = []) :
    Follows callback (.op op) := by
  unfold Follows step
  simp only [serves, noteReturned_true, silent]
  exact ⟨kept, .refl _⟩

theorem follows_op {stream sink : Bool} {running : ClientCallbackRunning} {op : BiDiClientOp}
    (isOpen : (bidiEndpoint stream sink false).isOpen op.direction = true)
    (inside : Inside running (stream || sink)) :
    Follows ⟨openState stream sink, stream || sink, false, running⟩ (.op op) := by
  cases op with
  | onSinkNext =>
    obtain rfl : sink = true := isOpen
    exact follows_send (.live _ stream true inside) rfl rfl
  | onSinkError encoding =>
    obtain rfl : sink = true := isOpen
    rw [Bool.or_true] at inside ⊢
    refine follows_last encoding.frame stream false ?_ inside ?_
    · simp [serve, onSinkError, BidirectionalStreamState.onSinkError]
    · simpa [endpoint, BiDiClientEvent.acts] using ends_sink stream (.inl rfl)
  | onSinkComplete =>
    obtain rfl : sink = true := isOpen
    rw [Bool.or_true] at inside ⊢
    refine follows_last (.payload false true .value) stream false ?_ inside ?_
    · simp [serve, onSinkComplete, BidirectionalStreamState.onSinkComplete]
    · simpa [endpoint, BiDiClientEvent.acts] using ends_sink stream (.inl rfl)
  | onStreamRequestN n =>
    obtain rfl : stream = true := isOpen
    by_cases nothing : n ≤ 0
    · exact follows_send (.live _ true sink inside) (if_pos nothing) rfl
    · exact follows_send (.live _ true sink inside) (if_neg nothing) rfl
  | onStreamCancel =>
    obtain rfl : stream = true := isOpen
    rw [Bool.true_or] at inside ⊢
    refine follows_last .cancel false sink ?_ inside ?_
    · simp [serve, onStreamCancel, BidirectionalStreamState.onStreamCancel]
    · simpa [endpoint, BiDiClientEvent.acts] using ends_stream sink (.inl rfl)

/-- A first response that does not come ends both directions. -/
theorem ends_both : (bidiEndpoint true true false).Follows
    [.seesEnd .stream, .seesEnd .sink, .frees] (bidiEndpoint false false true) := by
  simp [Endpoint.Follows, Run]

theorem follows_firstResponseTimeout :
    Follows ⟨.awaitingFirstResponse, true, true, .none⟩ .firstResponseTimeout :=
  ⟨.gone .closed, ends_both⟩

theorem follows_first (frame : BiDiFrame) :
    Follows ⟨.awaitingFirstResponse, true, true, .none⟩ (.handleFrame frame) := by
  cases frame with
  | payload next complete content =>
    cases next with
    | false => exact ⟨.gone .closed, ends_both⟩
    | true =>
      cases content with
      | malformed => exact ⟨.gone .closed, ends_both⟩
      | value | exceptionMetadata =>
        cases complete with
        | true => exact ⟨.live _ true true (.inr rfl), .refl _⟩
        | false => exact ⟨.live _ true true (.inl rfl), .refl _⟩
  | error canceled => exact ⟨.gone .closed, ends_both⟩
  | requestN n => exact ⟨.gone .closed, ends_both⟩
  | cancel => exact ⟨.gone .closed, ends_both⟩
  | ext ignore => exact ⟨.gone .closed, ends_both⟩

theorem ends_stream_free (sink : Bool) : (bidiEndpoint true sink false).Follows
    [.seesEnd .stream, .frees] (bidiEndpoint false false true) := by
  simp [Endpoint.Follows, Run]

theorem follows_endStream {callback : RocketBiDiServerCallback} {event : BiDiClientEvent}
    {sink : Bool} (call : BiDiClientCall)
    (ends : callback.step event = endStream ⟨openState true sink, true, false, .none⟩ call)
    (same : callback.endpoint = bidiEndpoint true sink false)
    (act : call.acts = [.seesEnd .stream]) (silent : event.acts = []) :
    Follows callback event := by
  unfold Follows
  rw [ends, same, silent]
  have follows := ends_stream sink (.inr rfl)
  cases sink with
  | true =>
    refine ⟨.live _ false true (.inl rfl), ?_⟩
    simpa [endStream, freeStreamIf, act, BidirectionalStreamState.onStreamComplete, endpoint,
      freesUnless] using follows
  | false =>
    refine ⟨.live _ false false (.inl rfl), ?_⟩
    have frees : BiDiClientCall.freeStream.acts = [.frees] := rfl
    simpa [endStream, freeStreamIf, freeStream, act, frees, endpoint, freesUnless] using follows

theorem follows_later {stream sink : Bool} {frame : BiDiFrame}
    (clean : stream || sink → BiDiConnection.endsStream frame = true → stream = true)
    (noFinal : frame ≠ .payload true true .value) :
    Follows ⟨openState stream sink, stream || sink, false, .none⟩ (.handleFrame frame) := by
  cases live : stream || sink with
  | false =>
    obtain ⟨rfl, rfl⟩ := Bool.or_eq_false_iff.mp live
    exact ⟨.live _ false false (.inl rfl), .refl _⟩
  | true =>
    have kept := Kept.live .none stream sink (.inl rfl)
    have clean := clean live
    rw [live] at kept
    cases frame with
    | payload next complete content =>
      cases next with
      | true =>
        by_cases value : content = .value
        · subst value
          cases complete with
          | true => exact absurd rfl noFinal
          | false =>
            cases stream with
            | true => cases sink <;> exact ⟨kept, .sees rfl⟩
            | false => cases sink <;> exact ⟨kept, .refl _⟩
        · obtain rfl := clean (by simp [BiDiConnection.endsStream, value])
          refine follows_endStream .onStreamError ?_
            (endpoint_openState true sink false .none) rfl rfl
          simp [step, handleFrame, handlePayloadFrame, handleBiDiResponse, value]
      | false =>
        obtain rfl := clean rfl
        cases complete with
        | true =>
          exact follows_endStream _ rfl (endpoint_openState true sink false .none) rfl rfl
        | false =>
          have closes := ends_stream_free sink
          cases sink <;> exact ⟨.gone _, closes⟩
    | error canceled =>
      obtain rfl := clean rfl
      exact follows_endStream _ rfl (endpoint_openState true sink false .none) rfl rfl
    | requestN n =>
      cases sink with
      | true => cases stream <;> exact ⟨kept, .sees rfl⟩
      | false => cases stream <;> exact ⟨kept, .refl _⟩
    | cancel =>
      have closes := ends_sink stream (.inr rfl)
      cases sink with
      | true =>
        cases stream with
        | true => exact ⟨.live _ true false (.inl rfl), closes⟩
        | false => exact ⟨.live _ false false (.inl rfl), closes⟩
      | false => cases stream <;> exact ⟨kept, .refl _⟩
    | ext ignore => cases ignore <;> exact ⟨kept, .refl _⟩

theorem follows_callbackReturns {stream sink : Bool} {running : ClientCallbackRunning}
    (inside : Inside running (stream || sink))
    (clean : running = .onFirstResponse true → stream = true) :
    Follows ⟨openState stream sink, stream || sink, false, running⟩ .callbackReturns := by
  rcases inside with rfl | rfl
  · exact ⟨.live _ stream sink (.inl rfl), .refl _⟩
  · cases live : stream || sink with
    | false =>
      obtain ⟨rfl, rfl⟩ := Bool.or_eq_false_iff.mp live
      exact ⟨.live _ false false (.inl rfl), .refl _⟩
    | true =>
      obtain rfl := clean (congrArg _ live)
      exact follows_endStream _ rfl (endpoint_openState true sink false _) rfl rfl

/-! ### Any state -/

variable {callback : RocketBiDiServerCallback}

theorem Kept.op (kept : callback.Kept) {op : BiDiClientOp}
    (later : callback.isFirstResponse = false)
    (isOpen : callback.endpoint.isOpen op.direction = true) : callback.Follows (.op op) := by
  cases kept with
  | first => cases later
  | live running stream sink inside =>
    rw [endpoint_openState] at isOpen
    exact follows_op isOpen inside
  | gone state => cases op <;> exact absurd isOpen Bool.false_ne_true

theorem Kept.frame (kept : callback.Kept) {frame : BiDiFrame} (idle : callback.running = .none)
    (clean : callback.streamExists = true → callback.isFirstResponse = false →
      BiDiConnection.endsStream frame = true → callback.state.isStreamOpen = true)
    (noFinal : frame ≠ .payload true true .value) : callback.Follows (.handleFrame frame) := by
  cases kept with
  | first => exact follows_first frame
  | live running stream sink inside =>
    obtain rfl := idle
    refine follows_later (fun live ends => ?_) noFinal
    exact (isStreamOpen_openState stream sink).symm.trans (clean live rfl ends)
  | gone state => exact ⟨.gone state, .refl _⟩

theorem Kept.returns (kept : callback.Kept)
    (clean : callback.running = .onFirstResponse true → callback.state.isStreamOpen = true) :
    callback.Follows .callbackReturns := by
  cases kept with
  | first => exact ⟨.first, .refl _⟩
  | live running stream sink inside =>
    refine follows_callbackReturns inside fun alive => ?_
    exact (isStreamOpen_openState stream sink).symm.trans (clean alive)
  | gone state => exact ⟨.gone state, .refl _⟩

theorem Kept.timeout (kept : callback.Kept) (first : callback.isFirstResponse = true) :
    callback.Follows .firstResponseTimeout := by
  cases kept with
  | first => exact follows_firstResponseTimeout
  | live | gone => cases first

theorem Kept.alive (kept : callback.Kept) (running : callback.running = .onFirstResponse true) :
    callback.streamExists = true := by
  cases kept with
  | first | gone => cases running
  | live running stream sink inside =>
    rcases inside with inside | inside
    · exact nomatch inside.symm.trans running
    · simpa using inside.symm.trans running

/-- A stream both of whose directions have ended is freed. -/
theorem Kept.frees (kept : callback.Kept)
    (closed : ∀ direction, callback.endpoint.isOpen direction = false) :
    callback.endpoint.freed = true := by
  cases kept with
  | first => exact nomatch closed .stream
  | live running stream sink inside =>
    rw [endpoint_openState] at closed ⊢
    obtain rfl : stream = false := closed .stream
    obtain rfl : sink = false := closed .sink
    rfl
  | gone state => rfl

end RocketBiDiServerCallback

/-! ## The server -/

namespace RocketBiDiClientCallback

variable {callback : RocketBiDiClientCallback}

/-- The directions as they are to the server, which sees its first response refused before the
stream is freed. -/
def endpoint (callback : RocketBiDiClientCallback) (streamExists : Bool) : Endpoint BiDiDirection :=
  if !streamExists then bidiEndpoint false false true
  else
    match callback.running with
    | .earlyStreamCancel alive => bidiEndpoint false alive false
    | _ =>
      if callback.state = .cancelledEarly then bidiEndpoint true true false
      else bidiEndpoint callback.state.isStreamOpen callback.state.isSinkOpen false

/-- The callbacks that may run while a stream is open or has ended inside them. -/
def Inside (running : ServerCallbackRunning) (alive : Bool) : Prop :=
  running = .none ∨ running = .onSinkNext alive

/-- A stream waits for its first response, or exists as long as one of its directions is open, or
has its first response refused, or is gone. -/
inductive Kept (callback : RocketBiDiClientCallback) : Bool → Prop
  | first (state : callback.state = .awaitingFirstResponse ∨ callback.state = .cancelledEarly)
      (null : callback.serverCallback = false) (idle : callback.running = .none) :
      Kept callback true
  | live (stream sink : Bool) (state : callback.state = openState stream sink)
      (ready : stream || sink → callback.serverCallback = true)
      (inside : Inside callback.running (stream || sink)) : Kept callback (stream || sink)
  | refused (alive : Bool) (state : callback.state = .cancelledEarly)
      (inside : callback.running = .earlyStreamCancel alive) : Kept callback true
  | freed (state : callback.state = .cancelledEarly)
      (inside : callback.running = .earlyStreamCancel false) : Kept callback false
  | gone (idle : callback.running = .none) : Kept callback false

/-- What an event does, and what it tells the server callback. -/
def Follows (callback : RocketBiDiClientCallback) (streamExists : Bool)
    (event : BiDiServerEvent) : Prop :=
  let streamExists' := streamExists && !(callback.step event).2.contains .freeStream
  (callback.step event).1.Kept streamExists' ∧ (callback.endpoint streamExists).Follows
      (event.acts ++ (callback.step event).2.flatMap BiDiServerCall.acts)
      ((callback.step event).1.endpoint streamExists')

theorem openState_ne {stream sink : Bool} : openState stream sink ≠ .cancelledEarly := by
  cases stream <;> cases sink <;> exact fun same => nomatch same

theorem endpoint_openState {stream sink : Bool} (state : callback.state = openState stream sink)
    (inside : ∀ alive, callback.running ≠ .earlyStreamCancel alive) :
    callback.endpoint (stream || sink) = bidiEndpoint stream sink (!(stream || sink)) := by
  unfold endpoint
  cases live : stream || sink with
  | false =>
    obtain ⟨rfl, rfl⟩ := Bool.or_eq_false_iff.mp live
    rfl
  | true =>
    rw [if_neg (by simp)]
    split
    · next alive running => exact absurd running (inside alive)
    · rw [state, if_neg openState_ne, isStreamOpen_openState, isSinkOpen_openState]
      rfl

theorem follows_of {event : BiDiServerEvent} {streamExists streamExists' : Bool}
    {log : List (Act BiDiDirection)} (callback' : RocketBiDiClientCallback)
    (calls : List BiDiServerCall)
    (steps : callback.step event = (callback', calls)) (kept : callback'.Kept streamExists')
    (exists' : (streamExists && !calls.contains .freeStream) = streamExists')
    (acts : event.acts ++ calls.flatMap BiDiServerCall.acts = log)
    (follows : (callback.endpoint streamExists).Follows log (callback'.endpoint streamExists')) :
    Follows callback streamExists event := by
  unfold Follows
  simp only [steps, exists', acts]
  exact ⟨kept, follows⟩

theorem Inside.not_early {running : ServerCallbackRunning} {alive : Bool}
    (inside : Inside running alive) (early : Bool) : running ≠ .earlyStreamCancel early := by
  rcases inside with rfl | rfl <;> exact fun same => nomatch same

theorem follows_of_open {event : BiDiServerEvent} {streamExists : Bool}
    {log : List (Act BiDiDirection)} (callback' : RocketBiDiClientCallback)
    (calls : List BiDiServerCall) (stream sink : Bool)
    (steps : callback.step event = (callback', calls))
    (state : callback'.state = openState stream sink)
    (ready : stream || sink → callback'.serverCallback = true)
    (inside : Inside callback'.running (stream || sink))
    (exists' : (streamExists && !calls.contains .freeStream) = (stream || sink))
    (acts : event.acts ++ calls.flatMap BiDiServerCall.acts = log)
    (follows : (callback.endpoint streamExists).Follows log
      (bidiEndpoint stream sink (!(stream || sink)))) :
    Follows callback streamExists event := by
  refine follows_of callback' calls steps (.live stream sink state ready inside) exists' acts ?_
  rw [endpoint_openState state inside.not_early]
  exact follows

theorem not_early_of_idle {running : ServerCallbackRunning} (idle : running = .none)
    (early : Bool) : running ≠ .earlyStreamCancel early := by
  rw [idle]
  exact fun same => nomatch same

theorem aliveOrFree_openState {stream sink : Bool} {calls : List BiDiServerCall}
    (state : callback.state = openState stream sink) :
    callback.aliveOrFree calls =
      (callback, if stream || sink then calls else calls ++ [.freeStream], stream || sink) := by
  unfold aliveOrFree BidirectionalStreamState.isAlive
  rw [state, isTerminal_openState]
  cases stream <;> cases sink <;> rfl

theorem noteReturned_idle (idle : callback.running = .none) (returned : Bool) :
    callback.noteReturned returned = callback := by
  unfold noteReturned
  rw [idle]

theorem noteReturned_inside (returned : Bool) (inside : Inside callback.running true) :
    (callback.noteReturned returned).state = callback.state ∧
      (callback.noteReturned returned).serverCallback = callback.serverCallback ∧
      Inside (callback.noteReturned returned).running returned := by
  unfold noteReturned
  rcases inside with running | running
  · rw [running]
    exact ⟨rfl, rfl, .inl running⟩
  · rw [running]
    exact ⟨rfl, rfl, .inr rfl⟩

theorem follows_aliveOrFree {op : BiDiServerOp} {stream sink : Bool}
    (callback' : RocketBiDiClientCallback) (frame : BiDiFrame) (stream' sink' : Bool)
    (state : callback.state = openState stream sink) (live : (stream || sink) = true)
    (inside : Inside callback.running true)
    (serves : callback.serve op = callback'.aliveOrFree [.send frame])
    (state' : callback'.state = openState stream' sink')
    (ready : callback'.serverCallback = true) (same : callback'.running = callback.running)
    (closes : (bidiEndpoint stream sink false).Follows
      ((BiDiServerEvent.op op).acts ++ freesUnless (stream' || sink'))
      (bidiEndpoint stream' sink' (!(stream' || sink')))) :
    Follows callback true (.op op) := by
  have before := endpoint_openState state inside.not_early
  rw [live] at before
  obtain ⟨sameState, sameReady, inside'⟩ :=
    noteReturned_inside (stream' || sink') (same.symm ▸ inside)
  have steps : callback.step (.op op) = (callback'.noteReturned (stream' || sink'),
      if stream' || sink' then [.send frame] else [.send frame, .freeStream]) := by
    unfold step
    simp only [serves, aliveOrFree_openState state']
    split
    · next idle => rw [noteReturned_idle (same.trans idle)]; rfl
    · rfl
  refine follows_of_open _ _ stream' sink' steps (sameState.trans state')
    (fun _ => sameReady.trans ready) inside' ?_ rfl ?_
  · cases stream' || sink' <;> rfl
  · rw [before]
    cases alive : stream' || sink' <;> rw [alive] at closes <;> exact closes

theorem follows_open {op : BiDiServerOp} {direction : BiDiDirection} {stream sink : Bool}
    (state : callback.state = openState stream sink)
    (ready : callback.serverCallback = true) (inside : Inside callback.running true)
    (behind : op.direction? = some direction)
    (isOpen : (bidiEndpoint stream sink false).isOpen direction = true) :
    Follows callback true (.op op) := by
  cases op with
  | onFirstResponse | onFirstResponseError _ => cases behind
  | onSinkCancel =>
    cases behind
    obtain rfl : sink = true := isOpen
    refine follows_aliveOrFree
      { callback.cancelSinkTimeout with state := callback.state.onSinkCancel } .cancel
      stream false state (Bool.or_true _) inside ?_ ?_ ready rfl ?_
    · unfold serve onSinkCancel
      rw [state, isSinkOpen_openState]
      rfl
    · rw [state]
      exact closeSink_openState stream true
    · rw [Bool.or_false]
      exact ends_sink stream (.inl rfl)
  | onSinkRequestN n =>
    cases behind
    obtain rfl : sink = true := isOpen
    refine follows_aliveOrFree _ (.requestN n) stream true state (Bool.or_true _) inside rfl
      state ready rfl ?_
    rw [Bool.or_true]
    exact .refl _
  | onStreamNext =>
    cases behind
    obtain rfl : stream = true := isOpen
    exact follows_aliveOrFree _ (.payload true false .value) true sink state (Bool.true_or _)
      inside rfl state ready rfl (.refl _)
  | onStreamError encoding =>
    cases behind
    obtain rfl : stream = true := isOpen
    refine follows_aliveOrFree _ encoding.frame false sink state (Bool.true_or _) inside rfl
      ?_ ready rfl (ends_stream sink (.inl rfl))
    show callback.state.closeStream = _
    rw [state, closeStream_openState]
  | onStreamComplete =>
    cases behind
    obtain rfl : stream = true := isOpen
    refine follows_aliveOrFree _ (.payload false true .value) false sink state
      (Bool.true_or _) inside rfl ?_ ready rfl (ends_stream sink (.inl rfl))
    show callback.state.closeStream = _
    rw [state, closeStream_openState]

theorem endpoint_first
    (state : callback.state = .awaitingFirstResponse ∨ callback.state = .cancelledEarly)
    (idle : callback.running = .none) :
    callback.endpoint true = bidiEndpoint true true false := by
  unfold endpoint
  rw [idle]
  rcases state with state | state <;> rw [state] <;> rfl

theorem endpoint_refused {alive : Bool} (inside : callback.running = .earlyStreamCancel alive) :
    callback.endpoint true = bidiEndpoint false alive false := by
  unfold endpoint
  rw [inside]
  rfl

/-- The first response brings the credit that came with the request. -/
theorem follows_accepted (state : callback.state = .awaitingFirstResponse)
    (idle : callback.running = .none) : Follows callback true (.op .onFirstResponse) := by
  have before := endpoint_first (.inl state) idle
  have sent : callback.state.onFirstResponseSent = openState true true := by
    rw [state]
    rfl
  by_cases positive : 0 < callback.initialTokens
  · have steps : callback.step (.op .onFirstResponse) = ({ callback with
            serverCallback := true
            state := callback.state.onFirstResponseSent
            timeoutCallback := false
            streamTokens := callback.streamTokens + callback.initialTokens.toInt64.toUInt64 },
          [.send (.payload true false .value), .onStreamRequestN callback.initialTokens]) := by
      have notNegative : ¬ callback.initialTokens ≤ 0 := Int32.not_le.mpr positive
      simp [step, serve, onFirstResponse, onStreamRequestN, state, idle, positive, notNegative]
    refine follows_of_open _ _ true true steps sent (fun _ => rfl) (.inl idle) rfl rfl ?_
    rw [before]
    exact .sees rfl
  · have steps : callback.step (.op .onFirstResponse) = ({ callback with
            serverCallback := true
            state := callback.state.onFirstResponseSent },
          [.send (.payload true false .value)]) := by
      simp [step, serve, onFirstResponse, state, idle, positive]
    refine follows_of_open _ _ true true steps sent (fun _ => rfl) (.inl idle) rfl rfl ?_
    rw [before]
    exact .refl _

/-- A first response that is an error ends both directions. -/
theorem ends_first : (bidiEndpoint true true false).Follows
    [.terminates .stream, .terminates .sink, .frees] (bidiEndpoint false false true) := by
  simp [Endpoint.Follows, Run]

/-- The first response, which is refused when the client has given up. -/
theorem follows_first {op : BiDiServerOp}
    (state : callback.state = .awaitingFirstResponse ∨ callback.state = .cancelledEarly)
    (idle : callback.running = .none) (first : op.direction? = none) :
    Follows callback true (.op op) := by
  have before := endpoint_first state idle
  cases op with
  | onFirstResponse =>
    rcases state with state | state
    · exact follows_accepted state idle
    · have steps : callback.step (.op .onFirstResponse) =
          ({ callback with running := .earlyStreamCancel true }, [.onStreamCancel]) := by
        simp [step, serve, onFirstResponse, state, idle]
      refine follows_of _ _ steps (.refused true state rfl) rfl rfl ?_
      rw [before, endpoint_refused rfl]
      exact ends_stream true (.inr rfl)
  | onFirstResponseError encoding =>
    have steps : callback.step (.op (.onFirstResponseError encoding)) =
        ({ callback with state := callback.state.onFirstResponseError },
          [.send encoding.frame, .freeStream]) := by
      simp [step, serve, onFirstResponseError, idle]
    refine follows_of _ _ steps (.gone idle) rfl rfl ?_
    rw [before]
    exact ends_first
  | onSinkCancel | onSinkRequestN _ | onStreamNext | onStreamError _ | onStreamComplete =>
    cases first

theorem ends_refused : (bidiEndpoint false true false).Follows [.terminates .sink]
    (bidiEndpoint false false false) := by
  simp [Endpoint.Follows, Run]

theorem frees_refused {alive : Bool} : (bidiEndpoint false alive false).Follows [.frees]
    (bidiEndpoint false false true) := by
  simp [Endpoint.Follows, Run]

/-- What the server calls while its first response is refused. -/
theorem follows_refused {op : BiDiServerOp} {direction : BiDiDirection} {alive : Bool}
    (state : callback.state = .cancelledEarly)
    (inside : callback.running = .earlyStreamCancel alive)
    (behind : op.direction? = some direction)
    (isOpen : (bidiEndpoint false alive false).isOpen direction = true) :
    Follows callback true (.op op) := by
  have before := endpoint_refused inside
  cases op with
  | onSinkCancel =>
    cases behind
    obtain rfl : alive = true := isOpen
    have steps : callback.step (.op .onSinkCancel) =
        ({ callback with running := .earlyStreamCancel false }, []) := by
      simp [step, serve, onSinkCancel, state, inside, noteReturned,
        BidirectionalStreamState.isSinkOpen, BidirectionalStreamState.isAlive,
        BidirectionalStreamState.isTerminal]
    refine follows_of _ _ steps (.refused false state rfl) rfl rfl ?_
    rw [before, endpoint_refused rfl]
    exact ends_refused
  | onSinkRequestN n =>
    cases behind
    obtain rfl : alive = true := isOpen
    have steps : callback.step (.op (.onSinkRequestN n)) = ({ callback with
            sinkTimeout := callback.sinkTimeout.map fun timeout =>
              timeout.incCredits n.toInt64.toUInt64
            running := .earlyStreamCancel false }, [.send (.requestN n), .freeStream]) := by
      simp [step, serve, onSinkRequestN, aliveOrFree, state, inside, noteReturned,
        BidirectionalStreamState.isAlive, BidirectionalStreamState.isTerminal]
    refine follows_of _ _ steps (.freed state rfl) rfl rfl ?_
    rw [before]
    exact frees_refused
  | onFirstResponse | onFirstResponseError _ => cases behind
  | onStreamNext | onStreamError _ | onStreamComplete =>
    cases behind
    exact absurd isOpen Bool.false_ne_true

theorem follows_terminate {event : BiDiServerEvent} {act : Act BiDiDirection}
    (callback' : RocketBiDiClientCallback) (call : BiDiServerCall) (stream sink : Bool)
    (steps : callback.step event = callback'.terminate call)
    (state : callback'.state = openState stream sink)
    (ready : callback'.serverCallback = true) (idle : callback'.running = .none)
    (acts : call.acts = [act]) (ends : call ≠ .freeStream) (silent : event.acts = [])
    (closes : (callback.endpoint true).Follows (act :: freesUnless (stream || sink))
      (bidiEndpoint stream sink (!(stream || sink)))) :
    Follows callback true event := by
  have terminal : callback'.state.isTerminal = !(stream || sink) := by
    rw [state, isTerminal_openState, Bool.not_or]
  unfold terminate at steps
  rw [terminal] at steps
  cases alive : stream || sink with
  | false =>
    rw [alive] at steps closes
    obtain ⟨rfl, rfl⟩ := Bool.or_eq_false_iff.mp alive
    refine follows_of_open _ _ false false steps state (fun live => nomatch live) (.inl idle)
      ?_ rfl ?_
    · simp
    · have frees : BiDiServerCall.freeStream.acts = [.frees] := rfl
      simpa [silent, acts, frees, freesUnless] using closes
  | true =>
    rw [alive] at steps closes
    refine follows_of_open _ _ stream sink steps state (fun _ => ready) (.inl idle) ?_ rfl ?_
    · simpa [alive] using ends.symm
    · rw [silent, alive]
      simpa [acts, freesUnless] using closes

theorem follows_callbackReturns {streamExists : Bool} (kept : callback.Kept streamExists)
    (busy : callback.running ≠ .none)
    (clean : ∀ alive, callback.running = .earlyStreamCancel alive → streamExists = true) :
    Follows callback streamExists .callbackReturns := by
  cases kept with
  | first state null idle => exact absurd idle busy
  | gone idle => exact absurd idle busy
  | freed state inside => exact nomatch clean _ inside
  | refused alive state inside =>
    have before := endpoint_refused inside
    have steps : callback.step .callbackReturns = ({ callback with running := .none },
          (if alive then [.onSinkComplete] else []) ++ [.freeStream]) := by
      simp [step, callbackReturns, inside]
    cases alive with
    | true =>
      refine follows_of _ _ steps (.gone rfl) rfl rfl ?_
      rw [before]
      exact ends_sink false (.inr rfl)
    | false =>
      refine follows_of _ _ steps (.gone rfl) rfl rfl ?_
      rw [before]
      exact frees_refused
  | live stream sink state ready inside =>
    have before := endpoint_openState state inside.not_early
    have inside := inside.resolve_left busy
    cases sink with
    | false =>
      have steps : callback.step .callbackReturns = ({ callback with running := .none }, []) := by
        simp [step, callbackReturns, inside, state]
      refine follows_of_open _ _ stream false steps state ready (.inl rfl) ?_ rfl ?_
      · simp
      · rw [before]
        exact .refl _
    | true =>
      rw [Bool.or_true] at before inside ready ⊢
      refine follows_terminate
        { callback.cancelSinkTimeout with
          running := .none
          state := callback.state.onSinkComplete }
        .onSinkComplete stream false ?_ ?_ (ready rfl) rfl rfl (fun same => nomatch same) rfl ?_
      · simp [step, callbackReturns, inside, state]
        rfl
      · show callback.state.closeSink = _
        rw [state, closeSink_openState]
      · rw [before, Bool.or_false]
        exact ends_sink stream (.inr rfl)

/-- Before the first response the client can only give up; other frames are refused with the
connection. -/
theorem follows_early {frame : BiDiFrame}
    (state : callback.state = .awaitingFirstResponse ∨ callback.state = .cancelledEarly)
    (null : callback.serverCallback = false) (idle : callback.running = .none) :
    Follows callback true (.handleFrame frame) := by
  have before := endpoint_first state idle
  have refuse (steps : callback.step (.handleFrame frame) = (callback, [.close])) :
      Follows callback true (.handleFrame frame) := by
    refine follows_of _ _ steps (.first state null idle) rfl rfl ?_
    exact .refl _
  cases frame with
  | error canceled =>
    cases canceled with
    | true =>
      have steps : callback.step (.handleFrame (.error true)) =
          ({ callback with state := .cancelledEarly }, []) := by
        simp [step, handleFrame, handleError, null, BidirectionalStreamState.onCancelEarly]
      have after : endpoint { callback with state := .cancelledEarly } true = _ :=
        endpoint_first (.inr rfl) idle
      refine follows_of _ _ steps (.first (.inr rfl) null idle) rfl rfl ?_
      rw [before, after]
      exact .refl _
    | false => exact refuse (by simp [step, handleFrame, handleError, null])
  | payload next complete content =>
    exact refuse (by simp [step, handleFrame, handlePayload, null])
  | requestN n => exact refuse (by simp [step, handleFrame, null])
  | cancel => exact refuse (by simp [step, handleFrame, null])
  | ext ignore => exact refuse (by simp [step, handleFrame, null])

/-- A frame that leaves the directions as they are. -/
theorem follows_seen {event : BiDiServerEvent} {stream sink : Bool}
    (callback' : RocketBiDiClientCallback) (calls : List BiDiServerCall)
    (state : callback.state = openState stream sink) (idle : callback.running = .none)
    (live : (stream || sink) = true) (steps : callback.step event = (callback', calls))
    (same : callback'.state = callback.state) (ready : callback'.serverCallback = true)
    (inside : Inside callback'.running true) (silent : event.acts = [])
    (kept : calls.contains .freeStream = false)
    (follows : (bidiEndpoint stream sink false).Follows (calls.flatMap BiDiServerCall.acts)
      (bidiEndpoint stream sink false)) : Follows callback true event := by
  have before := endpoint_openState state (not_early_of_idle idle)
  refine follows_of_open _ _ stream sink steps (same.trans state) (fun _ => ready)
    (live.symm ▸ inside) ?_ rfl ?_
  · rw [kept, live]
    rfl
  · rw [live] at before ⊢
    rw [before, silent]
    exact follows

/-- Nothing that a client sends reaches a direction that the server has closed. -/
theorem follows_frame {stream sink : Bool} {frame : BiDiFrame}
    (state : callback.state = openState stream sink) (ready : callback.serverCallback = true)
    (idle : callback.running = .none) (live : (stream || sink) = true) :
    Follows callback true (.handleFrame frame) := by
  have before := endpoint_openState state (not_early_of_idle idle)
  rw [live] at before
  have ignored (steps : callback.step (.handleFrame frame) = (callback, [])) :
      Follows callback true (.handleFrame frame) :=
    follows_seen _ _ state idle live steps rfl ready (.inl idle) rfl rfl (.refl _)
  have sinkEnds (call : BiDiServerCall) (acts : call.acts = [.seesEnd .sink])
      (isOpen : sink = true) (steps : callback.step (.handleFrame frame) = terminate
        { callback.cancelSinkTimeout with state := callback.state.closeSink } call) :
      Follows callback true (.handleFrame frame) := by
    subst isOpen
    refine follows_terminate _ call stream false steps ?_ ready idle acts ?_ rfl ?_
    · rw [state, closeSink_openState]
    · rintro rfl
      exact nomatch acts
    · rw [before, Bool.or_false]
      exact ends_sink stream (.inr rfl)
  cases frame with
  | payload next complete content =>
    cases isOpen : sink with
    | false => exact ignored (by simp [step, handleFrame, handlePayload, ready, state, isOpen])
    | true =>
      cases next with
      | true =>
        by_cases value : content = .value
        · refine follows_seen
            { callback.onSinkNext.1 with
              running := if complete then .onSinkNext true else .none }
            [.onSinkNext] state idle live ?_ rfl ready ?_ rfl rfl ?_
          · simp [step, handleFrame, handlePayload, ready, state, isOpen, value, onSinkNext]
          · cases complete
            · exact .inl rfl
            · exact .inr rfl
          · rw [isOpen]
            exact .sees rfl
        · refine sinkEnds .onSinkError rfl isOpen ?_
          simp [step, handleFrame, handlePayload, ready, state, isOpen, value, onSinkError,
            BidirectionalStreamState.onSinkError]
      | false =>
        cases complete with
        | true =>
          refine sinkEnds .onSinkComplete rfl isOpen ?_
          simp [step, handleFrame, handlePayload, ready, state, isOpen, onSinkComplete,
            BidirectionalStreamState.onSinkComplete]
        | false =>
          exact ignored (by simp [step, handleFrame, handlePayload, ready, state])
  | error canceled =>
    cases isOpen : sink with
    | false => exact ignored (by simp [step, handleFrame, handleError, ready, state, isOpen])
    | true =>
      refine sinkEnds .onSinkError rfl isOpen ?_
      simp [step, handleFrame, handleError, ready, state, isOpen, onSinkError,
        BidirectionalStreamState.onSinkError]
  | requestN n =>
    cases isOpen : stream with
    | false => exact ignored (by simp [step, handleFrame, ready, state, isOpen])
    | true =>
      by_cases nothing : n ≤ 0
      · refine follows_seen callback [.onStreamRequestN n] state idle live ?_ rfl ready
          (.inl idle) rfl rfl ?_
        · simp [step, handleFrame, ready, state, isOpen, onStreamRequestN, nothing]
        · rw [isOpen]
          exact .sees rfl
      · refine follows_seen
          { callback with
            timeoutCallback := false
            streamTokens := callback.streamTokens + n.toInt64.toUInt64 }
          [.onStreamRequestN n] state idle live ?_ rfl ready (.inl idle) rfl rfl ?_
        · simp [step, handleFrame, ready, state, isOpen, onStreamRequestN, nothing]
        · rw [isOpen]
          exact .sees rfl
  | cancel =>
    cases isOpen : stream with
    | false => exact ignored (by simp [step, handleFrame, ready, state, isOpen])
    | true =>
      subst isOpen
      refine follows_terminate
        { callback with
          timeoutCallback := false
          state := callback.state.onStreamCancel }
        .onStreamCancel false sink ?_ ?_ ready idle rfl (fun same => nomatch same) rfl ?_
      · simp [step, handleFrame, ready, state, onStreamCancel]
      · show callback.state.closeStream = _
        rw [state, closeStream_openState]
      · rw [before]
        exact ends_stream sink (.inr rfl)
  | ext ignore =>
    cases ignore with
    | true => exact ignored (by simp [step, handleFrame, ready])
    | false =>
      refine follows_seen callback [.close] state idle live ?_ rfl ready (.inl idle) rfl rfl
        (.refl _)
      simp [step, handleFrame, ready]

/-! ### Any state -/

theorem Kept.op {streamExists : Bool} (kept : callback.Kept streamExists) {op : BiDiServerOp}
    {direction : BiDiDirection} (behind : op.direction? = some direction)
    (answered : ¬ BiDiConnection.AwaitsFirstResponse callback)
    (isOpen : (callback.endpoint streamExists).isOpen direction = true) :
    callback.Follows streamExists (.op op) := by
  cases kept with
  | first state null idle => exact absurd ⟨state, idle⟩ answered
  | live stream sink state ready inside =>
    rw [endpoint_openState state inside.not_early] at isOpen
    cases live : stream || sink with
    | false =>
      obtain ⟨rfl, rfl⟩ := Bool.or_eq_false_iff.mp live
      cases direction <;> exact absurd isOpen Bool.false_ne_true
    | true =>
      rw [live] at inside
      exact follows_open state (ready live) inside behind isOpen
  | refused alive state inside =>
    rw [endpoint_refused inside] at isOpen
    exact follows_refused state inside behind isOpen
  | freed state inside => cases direction <;> exact absurd isOpen Bool.false_ne_true
  | gone idle => cases direction <;> exact absurd isOpen Bool.false_ne_true

theorem Kept.frame {frame : BiDiFrame} (kept : callback.Kept true)
    (idle : callback.running = .none) : callback.Follows true (.handleFrame frame) := by
  generalize exists' : true = streamExists at kept ⊢
  cases kept with
  | first state null idle => exact follows_early state null idle
  | live stream sink state ready inside =>
    rw [← exists']
    exact follows_frame state (ready exists'.symm) idle exists'.symm
  | refused alive state inside => exact nomatch idle.symm.trans inside
  | freed | gone => cases exists'

theorem Kept.frees {streamExists : Bool} (kept : callback.Kept streamExists)
    (idle : callback.running = .none)
    (closed : ∀ direction, (callback.endpoint streamExists).isOpen direction = false) :
    (callback.endpoint streamExists).freed = true := by
  cases kept with
  | first state null idle =>
    rw [endpoint_first state idle] at closed
    exact nomatch closed .stream
  | live stream sink state ready inside =>
    rw [endpoint_openState state inside.not_early] at closed ⊢
    obtain rfl : stream = false := closed .stream
    obtain rfl : sink = false := closed .sink
    rfl
  | refused alive state inside => exact nomatch idle.symm.trans inside
  | freed state inside => exact nomatch idle.symm.trans inside
  | gone idle => rfl

/-! ### What the server sends -/

theorem not_mem_aliveOrFree {frame other : BiDiFrame} (ne : frame ≠ other) :
    .send frame ∉ (callback.aliveOrFree [.send other]).2.1 := by
  unfold aliveOrFree
  split <;> simpa using ne

theorem not_mem_onStreamRequestN {n : Int32} {frame : BiDiFrame} :
    .send frame ∉ (callback.onStreamRequestN n).2 := by
  unfold onStreamRequestN
  split <;> simp

theorem not_mem_terminate {call : BiDiServerCall} {frame : BiDiFrame}
    (ne : .send frame ≠ call) : .send frame ∉ (callback.terminate call).2 := by
  unfold terminate
  split <;> simpa using ne

theorem no_final_op (op : BiDiServerOp) :
    .send (.payload true true .value) ∉ (callback.serve op).2.1 := by
  intro sent
  cases op with
  | onFirstResponse =>
    change _ ∈ callback.onFirstResponse.2.1 at sent
    simp only [onFirstResponse] at sent
    split at sent
    · simp at sent
    · split at sent
      · rcases List.mem_cons.mp sent with first | more
        · exact nomatch first
        · exact not_mem_onStreamRequestN more
      · simp at sent
  | onFirstResponseError encoding =>
    cases encoding <;> simp [serve, onFirstResponseError, BiDiEncoding.frame] at sent
  | onSinkCancel =>
    change _ ∈ callback.onSinkCancel.2.1 at sent
    unfold onSinkCancel at sent
    split at sent
    · simp at sent
    · exact not_mem_aliveOrFree (by simp) sent
  | onSinkRequestN n => exact not_mem_aliveOrFree (by simp) sent
  | onStreamNext => exact not_mem_aliveOrFree (by simp) sent
  | onStreamError encoding =>
    exact not_mem_aliveOrFree (by cases encoding <;> simp [BiDiEncoding.frame]) sent
  | onStreamComplete => exact not_mem_aliveOrFree (by simp) sent

theorem no_frame_handlePayload {next complete : Bool} {content : BiDiContent}
    {frame : BiDiFrame} :
    .send frame ∉ (callback.handlePayload next complete content).2 := by
  intro sent
  unfold handlePayload at sent
  split at sent
  · simp at sent
  · split at sent
    · simp at sent
    · split at sent
      · split at sent
        · exact not_mem_terminate (by simp) sent
        · simp [onSinkNext] at sent
      · split at sent
        · exact not_mem_terminate (by simp) sent
        · simp at sent

theorem no_frame_handleError {canceled : Bool} {frame : BiDiFrame} :
    .send frame ∉ (callback.handleError canceled).2 := by
  intro sent
  unfold handleError at sent
  split at sent
  · split at sent <;> simp at sent
  · split at sent
    · exact not_mem_terminate (by simp) sent
    · simp at sent

/-- The server answers a frame with no other. -/
theorem no_frame_handleFrame {received frame : BiDiFrame} :
    .send frame ∉ (callback.handleFrame received).2 := by
  cases received with
  | payload next complete content => exact no_frame_handlePayload
  | error canceled => exact no_frame_handleError
  | requestN n =>
    simp only [handleFrame]
    split
    · simp
    · split
      · exact not_mem_onStreamRequestN
      · simp
  | cancel =>
    simp only [handleFrame]
    split
    · simp
    · split
      · exact not_mem_terminate (by simp)
      · simp
  | ext ignore => cases ignore <;> simp only [handleFrame] <;> split <;> simp

theorem no_frame_callbackReturns {frame : BiDiFrame} :
    .send frame ∉ callback.callbackReturns.2 := by
  simp only [callbackReturns]
  split
  · simp
  · split
    · exact not_mem_terminate (by simp)
    · simp
  · split <;> simp

/-- The server sends its last payload and the end of the stream in two frames. -/
theorem no_final_payload (event : BiDiServerEvent) :
    .send (.payload true true .value) ∉ (callback.step event).2 := by
  cases event with
  | op op => exact no_final_op op
  | handleFrame frame => exact no_frame_handleFrame
  | callbackReturns => exact no_frame_callbackReturns
  | timeoutExpired | sinkChunkTimeoutExpired =>
    unfold step expire
    cases callback.serverCallback <;> cases callback.state.isSinkOpen <;>
      cases callback.state.isStreamOpen <;> simp
  | connectionClose =>
    unfold step handleConnectionClose
    cases callback.serverCallback <;> cases callback.state.isSinkOpen <;>
      cases callback.state.isStreamOpen <;> simp

end RocketBiDiClientCallback

/-! ## Both sides -/

namespace BiDiConnection

variable {connection : BiDiConnection}

/-- Each side is in a state that its log tells, and no payload on its way to the client ends the
stream direction with a value. -/
structure Kept (connection : BiDiConnection) : Prop where
  client : connection.client.Kept
  server : connection.server.Kept connection.serverStreamExists
  clientTracks : Tracks connection.clientLog connection.client.endpoint
  serverTracks : Tracks connection.serverLog
    (connection.server.endpoint connection.serverStreamExists)
  noFinal : ∀ frame ∈ connection.toClient, frame ≠ .payload true true .value

theorem kept_start (initialTokens : Int32) (chunkTimeout : Bool) :
    Kept (start initialTokens chunkTimeout) where
  client := .first
  server := .first (.inl rfl) rfl rfl
  clientTracks := tracks_start
  serverTracks := tracks_start
  noFinal _ sent := nomatch sent

theorem Kept.clientStep (kept : connection.Kept) {event : BiDiClientEvent}
    (follows : connection.client.Follows event) : (connection.clientStep event).Kept where
  client := follows.1
  server := kept.server
  clientTracks := kept.clientTracks.append follows.2
  serverTracks := kept.serverTracks
  noFinal := kept.noFinal

theorem Kept.serverStep (kept : connection.Kept) {event : BiDiServerEvent}
    (follows : connection.server.Follows connection.serverStreamExists event) :
    (connection.serverStep event).Kept where
  client := kept.client
  server := follows.1
  clientTracks := kept.clientTracks
  serverTracks := kept.serverTracks.append follows.2
  noFinal frame sent := by
    rcases List.mem_append.mp sent with before | now
    · exact kept.noFinal frame before
    · obtain ⟨call, called, same⟩ := List.mem_filterMap.mp now
      rintro rfl
      cases call <;> cases same
      exact RocketBiDiClientCallback.no_final_payload event called

theorem kept_step (kept : connection.Kept) {event : BiDiConnectionEvent}
    (allowed : connection.Allowed event) (clean : connection.Clean event) :
    (connection.step event).Kept := by
  cases event with
  | clientOp op =>
    refine kept.clientStep (kept.client.op allowed.1 ?_)
    exact (kept.clientTracks.isOpen_iff op.direction).mpr allowed.2
  | clientCallbackReturns => exact kept.clientStep (kept.client.returns clean)
  | firstResponseTimeout => exact kept.clientStep (kept.client.timeout allowed.1)
  | deliverToClient =>
    simp only [step]
    split
    · exact kept
    · next frame rest waiting =>
        have noFinal := kept.noFinal
        have clean : connection.client.streamExists = true →
            connection.client.isFirstResponse = false → endsStream frame = true →
              connection.client.state.isStreamOpen = true := by
          simpa [Clean, waiting] using clean
        rw [waiting] at noFinal
        have kept' : Kept { connection with toClient := rest } :=
          { kept with noFinal := fun frame sent => noFinal frame (List.mem_cons_of_mem _ sent) }
        exact kept'.clientStep (kept.client.frame allowed clean (noFinal frame List.mem_cons_self))
  | serverOp op =>
    show (connection.serverStep (.op op)).Kept
    refine kept.serverStep ?_
    simp only [Allowed] at allowed
    split at allowed
    · next first =>
        rw [allowed.2]
        exact RocketBiDiClientCallback.follows_first allowed.1.1 allowed.1.2 first
    · next direction behind =>
        refine kept.server.op behind allowed.1 ?_
        exact (kept.serverTracks.isOpen_iff direction).mpr allowed.2
  | serverCallbackReturns =>
    refine kept.serverStep (RocketBiDiClientCallback.follows_callbackReturns kept.server
      allowed fun alive running => ?_)
    cases alive with
    | true => exact clean (.inl running)
    | false => exact clean (.inr running)
  | deliverToServer =>
    simp only [step]
    split
    · exact kept
    · next frame rest waiting =>
        have kept' : Kept { connection with toServer := rest } := { kept with }
        split
        · next live =>
            refine kept'.serverStep ?_
            have server := kept'.server
            rw [live] at server ⊢
            exact server.frame allowed
        · exact kept'

theorem closed_endpoint {log : List (Act BiDiDirection)} {endpoint : Endpoint BiDiDirection}
    (tracks : Tracks log endpoint) (closed : ∀ direction, Closed log direction)
    (direction : BiDiDirection) : endpoint.isOpen direction = false :=
  Bool.eq_false_iff.mpr fun isOpen =>
    ((tracks.isOpen_iff direction).mp isOpen).1 (closed direction)

theorem Kept.terminates (kept : connection.Kept) : connection.Terminates where
  client := kept.clientTracks.orderly
  server := kept.serverTracks.orderly
  clientFrees closed :=
    kept.clientTracks.freed_iff.mp (kept.client.frees (closed_endpoint kept.clientTracks closed))
  serverFrees idle closed :=
    kept.serverTracks.freed_iff.mp
      (kept.server.frees idle (closed_endpoint kept.serverTracks closed))

/-! ## What is not clean is seen -/

theorem closed_of_not_open {log : List (Act BiDiDirection)} {endpoint : Endpoint BiDiDirection}
    (tracks : Tracks log endpoint) {direction : BiDiDirection}
    (closed : endpoint.isOpen direction = false) (live : endpoint.freed = false) :
    Closed log direction := by
  by_contra isOpen
  have notFreed : .frees ∉ log := fun freed =>
    absurd (tracks.freed_iff.mpr freed) (by simp [live])
  exact absurd ((tracks.isOpen_iff direction).mpr ⟨isOpen, notFreed⟩) (by simp [closed])

theorem not_orderly_of_ends {log acts more : List (Act BiDiDirection)} {direction : BiDiDirection}
    (closed : Closed log direction) (ends : acts = .seesEnd direction :: more) :
    ¬ Orderly (log ++ acts) := by
  rw [ends, ← List.singleton_append, ← List.append_assoc]
  exact fun orderly => orderly.of_append.open_of_seesEnd closed

theorem not_orderly_of_frees {log acts : List (Act BiDiDirection)}
    (before : List (Act BiDiDirection)) (freed : .frees ∈ log)
    (frees : acts = before ++ [.frees]) : ¬ Orderly (log ++ acts) := by
  rw [frees, ← List.append_assoc]
  exact fun orderly => orderly.fresh_of_frees (List.mem_append_left _ freed)

theorem acts_endStream (callback : RocketBiDiServerCallback) (call : BiDiClientCall)
    (acts : call.acts = [.seesEnd .stream]) :
    ∃ more, (callback.endStream call).2.flatMap BiDiClientCall.acts = .seesEnd .stream :: more := by
  simp only [RocketBiDiServerCallback.endStream, RocketBiDiServerCallback.freeStreamIf]
  split
  · unfold RocketBiDiServerCallback.freeStream
    split <;> simp [acts]
  · simp [acts]

theorem acts_endsStream {callback : RocketBiDiServerCallback} {frame : BiDiFrame}
    (live : callback.streamExists = true) (later : callback.isFirstResponse = false)
    (noFinal : frame ≠ .payload true true .value) (ends : endsStream frame = true) :
    ∃ more, (callback.step (.handleFrame frame)).2.flatMap BiDiClientCall.acts =
      .seesEnd .stream :: more := by
  cases frame with
  | payload next complete content =>
    cases next with
    | true =>
      by_cases value : content = .value
      · subst value
        cases complete with
        | true => exact absurd rfl noFinal
        | false => exact nomatch ends
      · have same : callback.step (.handleFrame (.payload true complete content)) =
            callback.endStream .onStreamError := by
          simp [RocketBiDiServerCallback.step, RocketBiDiServerCallback.handleFrame,
            RocketBiDiServerCallback.handlePayloadFrame,
            RocketBiDiServerCallback.handleBiDiResponse, live, later, value]
        rw [same]
        exact acts_endStream callback _ rfl
    | false =>
      cases complete with
      | true =>
        have same : callback.step (.handleFrame (.payload false true content)) =
            callback.endStream .onStreamComplete := by
          simp [RocketBiDiServerCallback.step, RocketBiDiServerCallback.handleFrame,
            RocketBiDiServerCallback.handlePayloadFrame,
            RocketBiDiServerCallback.handleBiDiResponse, live, later]
        rw [same]
        exact acts_endStream callback _ rfl
      | false =>
        simp [RocketBiDiServerCallback.step, RocketBiDiServerCallback.handleFrame,
          RocketBiDiServerCallback.handlePayloadFrame,
          RocketBiDiServerCallback.handleBiDiResponse,
          RocketBiDiServerCallback.freeStream, BiDiClientCall.acts, live, later]
  | error canceled =>
    have same : callback.step (.handleFrame (.error canceled)) =
        callback.endStream .onStreamError := by
      simp [RocketBiDiServerCallback.step, RocketBiDiServerCallback.handleFrame,
        RocketBiDiServerCallback.handleErrorFrame, live, later]
    rw [same]
    exact acts_endStream callback _ rfl
  | requestN n => exact nomatch ends
  | cancel => exact nomatch ends
  | ext ignore => exact nomatch ends

theorem closed_stream (kept : connection.Kept) (live : connection.client.streamExists = true)
    (notOpen : connection.client.state.isStreamOpen ≠ true) :
    Closed connection.clientLog .stream := by
  refine closed_of_not_open kept.clientTracks ?_ ?_
  · simpa [RocketBiDiServerCallback.endpoint, bidiEndpoint, live] using notOpen
  · simp [RocketBiDiServerCallback.endpoint, bidiEndpoint, live]

theorem clean_of_terminates (kept : connection.Kept) {event : BiDiConnectionEvent}
    (allowed : connection.Allowed event) (terminates : (connection.step event).Terminates) :
    connection.Clean event := by
  cases event with
  | deliverToClient =>
    intro live later ends
    by_contra notOpen
    have closed := closed_stream kept live notOpen
    cases waiting : connection.toClient with
    | nil => rw [waiting] at ends; exact nomatch ends
    | cons frame rest =>
      have noFinal := kept.noFinal frame (by rw [waiting]; exact List.mem_cons_self)
      rw [waiting] at ends
      obtain ⟨more, acts⟩ := acts_endsStream live later noFinal (by simpa using ends)
      have orderly := terminates.client
      simp only [step, waiting] at orderly
      exact not_orderly_of_ends closed acts orderly
  | clientCallbackReturns =>
    intro alive
    by_contra notOpen
    have live := kept.client.alive alive
    have closed := closed_stream kept live notOpen
    have same : connection.client.step .callbackReturns =
        RocketBiDiServerCallback.endStream { connection.client with running := .none }
          .onStreamComplete := by
      simp [RocketBiDiServerCallback.step, RocketBiDiServerCallback.callbackReturns, alive]
    obtain ⟨more, acts⟩ := acts_endStream { connection.client with running := .none }
      .onStreamComplete rfl
    rw [← same] at acts
    exact not_orderly_of_ends closed acts terminates.client
  | serverCallbackReturns =>
    intro refused
    by_contra gone
    rw [Bool.not_eq_true] at gone
    have freed : .frees ∈ connection.serverLog := by
      refine kept.serverTracks.freed_iff.mp ?_
      rw [gone]
      rfl
    have calls (alive : Bool) (refused : connection.server.running = .earlyStreamCancel alive) :
        connection.server.step .callbackReturns = ({ connection.server with running := .none },
            (if alive then [.onSinkComplete] else []) ++ [.freeStream]) := by
      simp [RocketBiDiClientCallback.step, RocketBiDiClientCallback.callbackReturns, refused]
    have server := terminates.server
    rcases refused with refused | refused
    · simp only [step, serverStep, calls true refused] at server
      exact not_orderly_of_frees [.seesEnd .sink] freed rfl server
    · simp only [step, serverStep, calls false refused] at server
      exact not_orderly_of_frees [] freed rfl server
  | clientOp | firstResponseTimeout | serverOp | deliverToServer => trivial

end BiDiConnection

/-! ## Whole runs -/

/-- A stream ends as it should in all the states of a run if and only if no frame and no first
response ends the stream direction of a client that has closed it, and the server does not free
a stream while its first response is refused. -/
theorem bidi_termination (initialTokens : Int32) (chunkTimeout : Bool)
    (events : List BiDiConnectionEvent)
    (allowed : Run BiDiConnection.step BiDiConnection.Allowed (.start initialTokens chunkTimeout)
      events) :
    (∀ n, ((events.take n).foldl BiDiConnection.step
        (.start initialTokens chunkTimeout)).Terminates) ↔
      Run BiDiConnection.step BiDiConnection.Clean (.start initialTokens chunkTimeout) events :=
  allowed.clean_iff (BiDiConnection.kept_start initialTokens chunkTimeout)
    (fun _ kept => kept.terminates)
    (fun _ _ kept allowed clean => BiDiConnection.kept_step kept allowed clean)
    (fun _ _ kept allowed terminates =>
      BiDiConnection.clean_of_terminates kept allowed terminates)

/-- A client that completes its sink and a server that completes the stream behind it. -/
theorem bidi_termination_both : let events : List BiDiConnectionEvent :=
      [.serverOp .onFirstResponse, .deliverToClient, .clientOp .onSinkNext, .deliverToServer,
        .serverOp .onStreamNext, .deliverToClient, .clientOp .onSinkComplete, .deliverToServer,
        .serverOp .onStreamComplete, .deliverToClient]
    (events.foldl BiDiConnection.step (.start 2 true)).Terminates := by
  intro events
  have allowed : Run BiDiConnection.step BiDiConnection.Allowed (.start 2 true) events := by
    decide +kernel
  have clean : Run BiDiConnection.step BiDiConnection.Clean (.start 2 true) events := by
    decide +kernel
  exact (bidi_termination 2 true events allowed).mpr clean 10

/-- A server completes the stream while a cancel of the client is on its way: the client is told
that the stream which it has cancelled is complete. -/
theorem complete_crosses_cancel : let events : List BiDiConnectionEvent :=
      [.serverOp .onFirstResponse, .deliverToClient, .clientOp .onStreamCancel,
        .serverOp .onStreamComplete, .deliverToClient]
    Run BiDiConnection.step BiDiConnection.Allowed (.start 2 true) events ∧
      (events.foldl BiDiConnection.step (.start 2 true)).clientLog =
        [.terminates .stream, .seesEnd .stream] ∧
      ¬ (events.foldl BiDiConnection.step (.start 2 true)).Terminates := by
  intro events
  have log : (events.foldl BiDiConnection.step (.start 2 true)).clientLog =
      [.terminates .stream, .seesEnd .stream] := by decide +kernel
  refine ⟨by decide +kernel, log, fun terminates => ?_⟩
  have orderly := terminates.client
  rw [log] at orderly
  exact (orderly.silent .stream [] [.seesEnd .stream] rfl).2 List.mem_cons_self

end FbThrift.Rocket
