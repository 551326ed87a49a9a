import FbThrift.Lib.Run
import FbThrift.Rocket.BiDiClientCallback
import FbThrift.Rocket.StreamClientCallback

/-!
# Flow control

A client asks for payloads and the server sends no more than that.  The client adds a credit for
the first response to those of its request.  A server callback emits while it holds credit: what
`onStreamRequestN` has brought it is more than what it has emitted.
-/

namespace FbThrift.Rocket

/-! ## The client -/

/-- `sendRequestStreamChannel`: one extra credit for the initial response. -/
def withFirstResponse (initialRequestN : Int32) : Int32 :=
  if initialRequestN < Int32.maxValue then initialRequestN + 1 else initialRequestN

/-- The number in the request frame; the constructor of the frame throws unless it is
positive. -/
def requestFrameN (initialRequestN : Int32) : Option Int32 :=
  if withFirstResponse initialRequestN ≤ 0 then none else some (withFirstResponse initialRequestN)

/-- `RocketClient::sendRequestN`: the numbers of the frames. -/
def sendRequestN (n : Int32) : List Int32 := if n ≤ 0 then [] else [n]

/-! ## Numbers of frames in counters -/

theorem toNat_signExtend (n : Int32) : (n.toInt64.toUInt64.toNat : Int) = n.toInt % 2 ^ 64 := by
  have cast : n.toInt64.toInt = n.toInt := Int32.toInt_toInt64 n
  have word : n.toInt64.toUInt64.toNat = n.toInt64.toBitVec.toNat := rfl
  have value : n.toInt64.toInt = n.toInt64.toBitVec.toInt := rfl
  have bound := n.toInt64.toBitVec.isLt
  rw [word, ← cast, value, BitVec.toInt_eq_toNat_cond]
  split <;> omega

theorem toNat_add_signExtend {counter : UInt64} {n : Int32}
    (low : 0 ≤ counter.toNat + n.toInt) (high : counter.toNat + n.toInt < 2 ^ 64) :
    ((counter + n.toInt64.toUInt64).toNat : Int) = counter.toNat + n.toInt := by
  have extended := toNat_signExtend n
  rw [UInt64.toNat_add]
  push_cast
  rw [extended]
  omega

/-- A counter loses one as long as it has one. -/
theorem toNat_sub_one (counter : UInt64) (positive : 0 < counter.toNat) :
    ((counter - 1).toNat : Int) = counter.toNat - 1 := by
  have enough : 1 ≤ counter := UInt64.le_iff_toNat_le.mpr positive
  rw [UInt64.toNat_sub_of_le counter 1 enough]
  have one : (1 : UInt64).toNat = 1 := rfl
  omega

theorem toInt_narrow (counter : UInt64) (small : counter.toNat < 2 ^ 31) :
    counter.toUInt32.toInt32.toInt = counter.toNat := by
  have low : counter.toUInt32.toNat = counter.toNat := by
    rw [UInt64.toNat_toUInt32]
    omega
  have value : counter.toUInt32.toInt32.toInt = counter.toUInt32.toBitVec.toInt := rfl
  have word : counter.toUInt32.toBitVec.toNat = counter.toUInt32.toNat := rfl
  rw [value, BitVec.toInt_eq_toNat_cond]
  split <;> omega

theorem toNat_positive {n : Int32} (positive : 0 < n.toInt) :
    (n.toUInt32.toUInt64.toNat : Int) = n.toInt := by
  have value : n.toInt = n.toBitVec.toInt := rfl
  have word : n.toUInt32.toUInt64.toNat = n.toBitVec.toNat := rfl
  have bound := n.toBitVec.isLt
  rw [value, BitVec.toInt_eq_toNat_cond] at positive ⊢
  rw [word]
  split at positive
  next less => rw [if_pos less]
  next => omega

/-! ## Streams -/

/-- A callback, what it has called, and the sum of the `REQUEST_N` frames that it has handled. -/
structure StreamConfig where
  callback : RocketStreamClientCallback
  calls : List StreamCall
  requested : Int

namespace StreamConfig

/-- `createStreamClientCallback` with the number of a request frame. -/
def start (initialRequestN : Int32) : StreamConfig where
  callback := .new initialRequestN.toUInt32
  calls := []
  requested := 0

def requestN (callback : RocketStreamClientCallback) : StreamEvent → Int
  | .requestN n => if callback.serverCallbackReady then n.toInt else 0
  | _ => 0

/-- The number of a `REQUEST_N` frame. -/
def frameN : StreamEvent → Option Int32
  | .requestN n => some n
  | _ => none

def step (config : StreamConfig) (event : StreamEvent) : StreamConfig where
  callback := (config.callback.step event).1
  calls := config.calls ++ (config.callback.step event).2
  requested := config.requested + requestN config.callback event

def credit : StreamCall → Int
  | .onStreamRequestN n => n.toInt
  | _ => 0

/-- The credit that the server callback was given. -/
def granted (calls : List StreamCall) : Int := (calls.map credit).sum

/-- The payloads that were sent behind the first response. -/
def sent (calls : List StreamCall) : Nat := calls.count .sendStreamPayload

/-- A first response comes once, and other calls of the server behind it, payloads while it
holds credit.  A timeout was scheduled before it expires. -/
def Allowed (config : StreamConfig) : StreamEvent → Prop
  | .onFirstResponse _ _ => config.callback.serverCallbackReady = false
  | .onStreamNext =>
    config.callback.serverCallbackReady = true ∧ sent config.calls < granted config.calls
  | .onStreamComplete | .onStreamError _ | .onStreamHeaders | .resetServerCallback _ =>
    config.callback.serverCallbackReady = true
  | .timeoutExpired => config.callback.timeoutCallback = true
  | _ => True

/-- A `REQUEST_N` frame takes away no more than there is and adds no more than fits. -/
def CreditFits (config : StreamConfig) : StreamEvent → Prop
  | .requestN n =>
    0 ≤ config.callback.tokens.toNat + n.toInt ∧ config.callback.tokens.toNat + n.toInt < 2 ^ 64
  | _ => True

instance (config : StreamConfig) : ∀ event, Decidable (config.Allowed event) := by
  intro event
  cases event <;> unfold Allowed <;> infer_instance

instance (config : StreamConfig) : ∀ event, Decidable (config.CreditFits event) := by
  intro event
  cases event <;> unfold CreditFits <;> infer_instance

/-! ### What one event does to the credit -/

@[simp] theorem granted_append (calls more : List StreamCall) :
    granted (calls ++ more) = granted calls + granted more := by
  simp [granted]

@[simp] theorem sent_append (calls more : List StreamCall) :
    sent (calls ++ more) = sent calls + sent more := by
  simp [sent]

/-- The counter tells what the client has asked for and the server has not sent.  The server
callback was given no more, and less if the first response did not serialize. -/
structure Counted (initialRequestN : Int32) (config : StreamConfig) : Prop where
  waiting : config.callback.serverCallbackReady = false →
    config.callback.tokens.toNat = initialRequestN.toInt ∧ config.requested = 0 ∧
      granted config.calls = 0 ∧ sent config.calls = 0
  counting : config.callback.serverCallbackReady = true → config.callback.tokens.toNat =
        initialRequestN.toInt - 1 + config.requested - sent config.calls ∧
      granted config.calls ≤ initialRequestN.toInt - 1 + config.requested

variable {initialRequestN : Int32} {config : StreamConfig} {event : StreamEvent}

theorem counted_start (positive : 0 < initialRequestN.toInt) :
    Counted initialRequestN (start initialRequestN) := by
  constructor
  · intro _
    exact ⟨toNat_positive positive, rfl, rfl, rfl⟩
  · intro ready
    cases ready

/-- An event that leaves the credit alone. -/
theorem Counted.same (counted : Counted initialRequestN config)
    (ready : (config.step event).callback.serverCallbackReady = config.callback.serverCallbackReady)
    (tokens : (config.step event).callback.tokens = config.callback.tokens)
    (requested : requestN config.callback event = 0)
    (none : granted (config.callback.step event).2 = 0)
    (quiet : sent (config.callback.step event).2 = 0) :
    Counted initialRequestN (config.step event) := by
  constructor
  · intro waits
    rw [ready] at waits
    rw [tokens]
    simpa [step, requested, none, quiet] using counted.waiting waits
  · intro waits
    rw [ready] at waits
    rw [tokens]
    simpa [step, requested, none, quiet] using counted.counting waits

/-- The first response takes a token and grants at most the others. -/
theorem onFirstResponse_of_null {callback : RocketStreamClientCallback}
    (set : callback.serverCallbackOrCancelled = .null) (streamsPaused serializes : Bool) :
    (callback.onFirstResponse streamsPaused serializes).1 =
        { callback with serverCallbackOrCancelled := .callback }.takeToken ∧
      sent (callback.onFirstResponse streamsPaused serializes).2 = 0 ∧
      (granted (callback.onFirstResponse streamsPaused serializes).2 = 0 ∨
        granted (callback.onFirstResponse streamsPaused serializes).2 =
          (callback.tokens - 1).toUInt32.toInt32.toInt) := by
  have pauses : ∀ callback : RocketStreamClientCallback,
      granted (if streamsPaused then callback.handlePausedByConnection else []) = 0 ∧
        sent (if streamsPaused then callback.handlePausedByConnection else []) = 0 := by
    intro callback
    unfold RocketStreamClientCallback.handlePausedByConnection
    split <;> try split
    all_goals exact ⟨rfl, rfl⟩
  unfold RocketStreamClientCallback.onFirstResponse
  rw [set, if_neg (by decide)]
  dsimp only
  split
  next =>
    refine ⟨rfl, ?_, .inl ?_⟩
    · rw [sent_append, (pauses _).2]
      rfl
    · rw [granted_append, (pauses _).1]
      rfl
  next =>
    split
    next =>
      refine ⟨rfl, ?_, .inr ?_⟩
      · rw [sent_append, (pauses _).2]
        rfl
      · rw [granted_append, (pauses _).1]
        simp [granted, credit, RocketStreamClientCallback.takeToken]
    next =>
      refine ⟨rfl, ?_, .inl ?_⟩
      · rw [sent_append, (pauses _).2]
        rfl
      · rw [granted_append, (pauses _).1]
        rfl

theorem Counted.onFirstResponse (counted : Counted initialRequestN config)
    (positive : 0 < initialRequestN.toInt)
    (waits : config.callback.serverCallbackReady = false) (streamsPaused serializes : Bool) :
    Counted initialRequestN (config.step (.onFirstResponse streamsPaused serializes)) := by
  obtain ⟨tokens, requested, given, unsent⟩ := counted.waiting waits
  have taken := toNat_sub_one config.callback.tokens (by omega)
  have below := Int32.toInt_lt initialRequestN
  have told := toInt_narrow (config.callback.tokens - 1) (by omega)
  cases set : config.callback.serverCallbackOrCancelled with
  | callback => simp [RocketStreamClientCallback.serverCallbackReady, set] at waits
  | cancelled =>
    apply counted.same <;>
      simp [step, RocketStreamClientCallback.step, RocketStreamClientCallback.onFirstResponse,
        set, StreamConfig.requestN, granted, sent, credit]
  | null =>
    obtain ⟨callback, sentNone, grants⟩ :=
      onFirstResponse_of_null set streamsPaused serializes
    have none : StreamConfig.requestN config.callback
        (.onFirstResponse streamsPaused serializes) = 0 := rfl
    constructor
    · intro still
      rw [show (config.step (.onFirstResponse streamsPaused serializes)).callback = _
        from callback] at still
      cases still
    · intro _
      simp only [step, RocketStreamClientCallback.step, callback, granted_append, sent_append,
        none, RocketStreamClientCallback.takeToken, taken, given, unsent, sentNone, requested,
        tokens]
      rcases grants with zero | rest
      · rw [zero]
        omega
      · rw [rest, told, taken]
        omega

theorem Counted.onStreamNext (counted : Counted initialRequestN config)
    (ready : config.callback.serverCallbackReady = true)
    (holds : sent config.calls < granted config.calls) :
    Counted initialRequestN (config.step .onStreamNext) := by
  obtain ⟨tokens, given⟩ := counted.counting ready
  have taken := toNat_sub_one config.callback.tokens (by omega)
  have one : sent [.sendStreamPayload] = 1 := rfl
  have nothing : granted [.sendStreamPayload] = 0 := rfl
  have none : StreamConfig.requestN config.callback .onStreamNext = 0 := rfl
  constructor
  · intro waits
    rw [show (config.step .onStreamNext).callback.serverCallbackReady = true from ready] at waits
    cases waits
  · intro _
    simp only [step, RocketStreamClientCallback.step, RocketStreamClientCallback.takeToken,
      granted_append, sent_append, taken, one, nothing, none]
    omega

theorem Counted.handleRequestN (counted : Counted initialRequestN config) {n : Int32}
    (fits : config.CreditFits (.requestN n)) :
    Counted initialRequestN (config.step (.requestN n)) := by
  cases ready : config.callback.serverCallbackReady with
  | false =>
    apply counted.same <;>
      simp [step, RocketStreamClientCallback.step, ready, requestN, granted, sent, credit]
  | true =>
    obtain ⟨tokens, given⟩ := counted.counting ready
    have added := toNat_add_signExtend fits.1 fits.2
    have brings : requestN config.callback (.requestN n) = n.toInt := by simp [requestN, ready]
    have handled : config.callback.step (.requestN n) = config.callback.handleRequestN n := by
      simp [RocketStreamClientCallback.step, ready]
    by_cases zero : n = 0
    · subst zero
      apply counted.same <;>
        simp [step, handled, RocketStreamClientCallback.handleRequestN, requestN, granted, sent]
    · have one : granted [.onStreamRequestN n] = n.toInt := by simp [granted, credit]
      have nothing : sent [.onStreamRequestN n] = 0 := rfl
      constructor
      · intro waits
        simp only [step, handled, RocketStreamClientCallback.handleRequestN, zero, if_false]
          at waits
        have unready : config.callback.serverCallbackReady = false := waits
        rw [ready] at unready
        cases unready
      · intro _
        simp only [step, handled, RocketStreamClientCallback.handleRequestN, zero, if_false,
          granted_append, sent_append, added, brings, one, nothing]
        omega

theorem counted_step (positive : 0 < initialRequestN.toInt)
    (counted : Counted initialRequestN config) (allowed : config.Allowed event)
    (fits : config.CreditFits event) : Counted initialRequestN (config.step event) := by
  cases event with
  | onFirstResponse streamsPaused serializes =>
    exact counted.onFirstResponse positive allowed streamsPaused serializes
  | onStreamNext => exact counted.onStreamNext allowed.1 allowed.2
  | requestN n => exact counted.handleRequestN fits
  | cancel =>
    cases ready : config.callback.serverCallbackReady with
    | false =>
      apply counted.same <;> simp_all [step, RocketStreamClientCallback.step,
          RocketStreamClientCallback.handleCancel, requestN, granted, sent,
          RocketStreamClientCallback.serverCallbackReady]
    | true =>
      apply counted.same <;> simp [step, RocketStreamClientCallback.step,
          RocketStreamClientCallback.handleCancel, ready, requestN, granted, sent, credit]
  | onFirstResponseError encoding | onStreamError encoding =>
    cases encoding <;> apply counted.same <;> rfl
  | resetServerCallback streamsPaused =>
    have ready : config.callback.serverCallbackReady = true := allowed
    cases streamsPaused <;> apply counted.same <;>
      simp_all [step, RocketStreamClientCallback.step, requestN, granted, sent, credit,
        RocketStreamClientCallback.handlePausedByConnection,
        RocketStreamClientCallback.serverCallbackReady]
  | ext ignore =>
    cases ignore <;> cases ready : config.callback.serverCallbackReady <;>
      apply counted.same <;>
        simp [step, RocketStreamClientCallback.step, ready, requestN, granted, sent, credit]
  | streamHeadersPush | connectionClose | pausedByConnection | resumedByConnection =>
    cases ready : config.callback.serverCallbackReady <;> apply counted.same <;>
      simp [step, RocketStreamClientCallback.step, ready, requestN, granted, sent, credit,
        RocketStreamClientCallback.handlePausedByConnection]
  | onStreamComplete | onStreamHeaders | payload | error | timeoutExpired =>
    apply counted.same <;> rfl

/-- What the handled frames ask for is no more than what the frames ask for. -/
theorem requested_le (events : List StreamEvent) (config : StreamConfig) :
    (events.foldl step config).requested ≤
      config.requested + ((events.filterMap frameN).map fun n => max n.toInt 0).sum := by
  rw [← sum_map_getD frameN fun n => max n.toInt 0]
  refine foldl_measure_le StreamConfig.requested ?_ events config
  intro config event
  simp only [step]
  unfold requestN frameN
  grind

end StreamConfig

/-! ## Bidirectional streams -/

/-- A callback, what it has called, the credit of the request once the first response is sent,
the sum of the `REQUEST_N` frames that it has handled, and the payloads that were sent behind
the first response. -/
structure BiDiConfig where
  callback : RocketBiDiClientCallback
  calls : List BiDiServerCall
  initial : Int
  requested : Int
  sent : Nat

namespace BiDiConfig

def start (initialTokens : Int32) (chunkTimeout : Bool) : BiDiConfig where
  callback := .new initialTokens chunkTimeout
  calls := []
  initial := 0
  requested := 0
  sent := 0

def initialCredit (callback : RocketBiDiClientCallback) : BiDiServerEvent → Int
  | .op .onFirstResponse =>
    if callback.state = .cancelledEarly then 0 else max callback.initialTokens.toInt 0
  | _ => 0

def requestN (callback : RocketBiDiClientCallback) : BiDiServerEvent → Int
  | .handleFrame (.requestN n) =>
    if callback.serverCallback ∧ callback.state.isStreamOpen then max n.toInt 0 else 0
  | _ => 0

/-- The number of a `REQUEST_N` frame. -/
def frameN : BiDiServerEvent → Option Int32
  | .handleFrame (.requestN n) => some n
  | _ => none

def payloads : BiDiServerEvent → Nat
  | .op .onStreamNext => 1
  | _ => 0

def step (config : BiDiConfig) (event : BiDiServerEvent) : BiDiConfig where
  callback := (config.callback.step event).1
  calls := config.calls ++ (config.callback.step event).2
  initial := config.initial + initialCredit config.callback event
  requested := config.requested + requestN config.callback event
  sent := config.sent + payloads event

def credit : BiDiServerCall → Int
  | .onStreamRequestN n => n.toInt
  | _ => 0

/-- The credit that the server callback was given. -/
def granted (calls : List BiDiServerCall) : Int := (calls.map credit).sum

def sinkCredit : BiDiServerCall → Int
  | .send (.requestN n) => n.toInt
  | .onSinkNext => -1
  | _ => 0

/-- The credit that the client was given for its sink and has not used. -/
def sinkGranted (calls : List BiDiServerCall) : Int := (calls.map sinkCredit).sum

/-- A first response comes once, payloads while the server callback holds credit, and the server
asks for a positive number of sink payloads. -/
def Allowed (config : BiDiConfig) : BiDiServerEvent → Prop
  | .op .onFirstResponse | .op (.onFirstResponseError _) =>
    config.callback.serverCallback = false ∧ config.callback.running = .none ∧
      (config.callback.state = .awaitingFirstResponse ∨ config.callback.state = .cancelledEarly)
  | .op .onStreamNext => config.sent < granted config.calls
  | .op (.onSinkRequestN n) => 0 < n.toInt
  | _ => True

/-- What is asked for fits the counters, and with a chunk timeout a payload of the sink comes
only when it was asked for. -/
def CreditFits (config : BiDiConfig) : BiDiServerEvent → Prop
  | .handleFrame (.requestN n) => config.callback.streamTokens.toNat + n.toInt < 2 ^ 64
  | .op (.onSinkRequestN n) =>
    ∀ timeout ∈ config.callback.sinkTimeout, timeout.credits.toNat + n.toInt < 2 ^ 64
  | .handleFrame (.payload true _ .value) =>
    config.callback.state.isSinkOpen = true →
      ∀ timeout ∈ config.callback.sinkTimeout, 0 < timeout.credits.toNat
  | _ => True

instance (config : BiDiConfig) : ∀ event, Decidable (config.Allowed event) := by
  intro event
  unfold Allowed
  split <;> infer_instance

instance (config : BiDiConfig) : ∀ event, Decidable (config.CreditFits event) := by
  intro event
  unfold CreditFits
  split <;> infer_instance

/-! ### What one event does to the credit -/

@[simp] theorem granted_append (calls more : List BiDiServerCall) :
    granted (calls ++ more) = granted calls + granted more := by
  simp [granted]

@[simp] theorem sinkGranted_append (calls more : List BiDiServerCall) :
    sinkGranted (calls ++ more) = sinkGranted calls + sinkGranted more := by
  simp [sinkGranted]

@[simp] theorem granted_cons (call : BiDiServerCall) (calls : List BiDiServerCall) :
    granted (call :: calls) = credit call + granted calls := by
  simp [granted]

@[simp] theorem sinkGranted_cons (call : BiDiServerCall) (calls : List BiDiServerCall) :
    sinkGranted (call :: calls) = sinkCredit call + sinkGranted calls := by
  simp [sinkGranted]

@[simp] theorem granted_nil : granted [] = 0 := rfl

@[simp] theorem sinkGranted_nil : sinkGranted [] = 0 := rfl

/-- The counters tell the credit that is left in each direction. -/
structure Counted (initialTokens : Int32) (config : BiDiConfig) : Prop where
  stream : config.callback.streamTokens.toNat = config.initial + config.requested - config.sent
  given : granted config.calls ≤ config.initial + config.requested
  sink : ∀ timeout ∈ config.callback.sinkTimeout, timeout.credits.toNat = sinkGranted config.calls
  tokens : config.callback.initialTokens = initialTokens
  bounded : config.initial ≤ max initialTokens.toInt 0
  once : config.callback.state = .awaitingFirstResponse →
    config.callback.serverCallback = false ∧ config.initial = 0 ∧ config.requested = 0

/-- What keeps the counters, and calls nothing that counts. -/
structure Calm (callback callback' : RocketBiDiClientCallback) (calls : List BiDiServerCall) :
    Prop where
  stream : callback'.streamTokens = callback.streamTokens
  sink : callback'.sinkTimeout.map SinkTimeoutCallback.credits =
    callback.sinkTimeout.map SinkTimeoutCallback.credits
  tokens : callback'.initialTokens = callback.initialTokens
  awaiting : callback'.state = .awaitingFirstResponse → callback.state = .awaitingFirstResponse
  ready : callback'.serverCallback = true → callback.serverCallback = true
  granted : granted calls ≤ 0
  sinkGranted : sinkGranted calls = 0

theorem closeStream_awaiting {state : BidirectionalStreamState}
    (awaiting : state.closeStream = .awaitingFirstResponse) : state = .awaitingFirstResponse := by
  cases state <;> cases awaiting
  rfl

theorem closeSink_awaiting {state : BidirectionalStreamState}
    (awaiting : state.closeSink = .awaitingFirstResponse) : state = .awaitingFirstResponse := by
  cases state <;> cases awaiting
  rfl

theorem map_cancelTimeout (timeout : Option SinkTimeoutCallback) :
    (timeout.map SinkTimeoutCallback.cancelTimeout).map SinkTimeoutCallback.credits =
      timeout.map SinkTimeoutCallback.credits := by
  cases timeout <;> rfl

namespace Calm

variable {callback callback' callback'' : RocketBiDiClientCallback} {calls more : List BiDiServerCall}

theorem refl (none : BiDiConfig.granted calls = 0) (quiet : BiDiConfig.sinkGranted calls = 0) :
    Calm callback callback calls :=
  ⟨rfl, rfl, rfl, id, id, Int.le_of_eq none, quiet⟩

theorem trans (first : Calm callback callback' calls) (second : Calm callback' callback'' more) :
    Calm callback callback'' (calls ++ more) where
  stream := second.stream.trans first.stream
  sink := second.sink.trans first.sink
  tokens := second.tokens.trans first.tokens
  awaiting := first.awaiting ∘ second.awaiting
  ready := first.ready ∘ second.ready
  granted := by
    have := first.granted
    have := second.granted
    rw [granted_append]
    omega
  sinkGranted := by rw [sinkGranted_append, first.sinkGranted, second.sinkGranted]; rfl

theorem aliveOrFree (calm : Calm callback callback' calls) :
    Calm callback (callback'.aliveOrFree calls).1 (callback'.aliveOrFree calls).2.1 := by
  unfold RocketBiDiClientCallback.aliveOrFree
  split
  next => exact calm
  next =>
    have freed : Calm callback' callback' [.freeStream] := refl rfl rfl
    exact calm.trans freed

theorem terminate (calm : Calm callback callback' []) {call : BiDiServerCall}
    (none : credit call = 0) (quiet : sinkCredit call = 0) :
    Calm callback (callback'.terminate call).1 (callback'.terminate call).2 := by
  unfold RocketBiDiClientCallback.terminate
  split
  next =>
    have noCredit : BiDiConfig.granted [call, .freeStream] = 0 := by
      rw [granted_cons, none]
      rfl
    have noSinkCredit : BiDiConfig.sinkGranted [call, .freeStream] = 0 := by
      rw [sinkGranted_cons, quiet]
      rfl
    exact calm.trans ⟨rfl, rfl, rfl, id, nofun, Int.le_of_eq noCredit, noSinkCredit⟩
  next =>
    exact calm.trans (refl (by simp [none]) (by simp [quiet]))

theorem closeStream (timeoutCallback : Bool) : Calm callback
      { callback with timeoutCallback := timeoutCallback, state := callback.state.closeStream } [] :=
  ⟨rfl, rfl, rfl, closeStream_awaiting, id, by simp, by simp⟩

theorem closeSink :
    Calm callback { callback.cancelSinkTimeout with state := callback.state.closeSink } [] :=
  ⟨rfl, map_cancelTimeout _, rfl, closeSink_awaiting, id, by simp, by simp⟩

theorem running (calm : Calm callback callback' calls) (running : ServerCallbackRunning) :
    Calm callback { callback' with running := running } calls :=
  ⟨calm.stream, calm.sink, calm.tokens, calm.awaiting, calm.ready, calm.granted, calm.sinkGranted⟩

theorem noteReturned (calm : Calm callback callback' calls) (returned : Bool) :
    Calm callback (callback'.noteReturned returned) calls := by
  unfold RocketBiDiClientCallback.noteReturned
  split
  · exact calm
  · exact calm.running _
  · exact calm.running _

end Calm

section

variable (callback : RocketBiDiClientCallback)

theorem calm_onSinkError : Calm callback callback.onSinkError.1 callback.onSinkError.2 :=
  Calm.closeSink.terminate rfl rfl

theorem calm_onSinkComplete : Calm callback callback.onSinkComplete.1 callback.onSinkComplete.2 :=
  Calm.closeSink.terminate rfl rfl

theorem calm_onStreamCancel : Calm callback callback.onStreamCancel.1 callback.onStreamCancel.2 :=
  (Calm.closeStream false).terminate rfl rfl

/-- What the server calls without using or giving credit. -/
theorem calm_serve {op : BiDiServerOp} (next : op ≠ .onStreamNext)
    (asks : ∀ n, op ≠ .onSinkRequestN n)
    (first : op = .onFirstResponse → callback.state = .cancelledEarly) :
    Calm callback (callback.serve op).1 (callback.serve op).2.1 := by
  cases op with
  | onFirstResponse =>
    have called : Calm callback callback [.onStreamCancel] := .refl rfl rfl
    rw [RocketBiDiClientCallback.serve, RocketBiDiClientCallback.onFirstResponse,
      if_pos (first rfl)]
    exact called.running _
  | onFirstResponseError encoding =>
    have sends : Calm callback callback [.send encoding.frame, .freeStream] := by
      cases encoding <;> exact .refl rfl rfl
    refine ⟨rfl, rfl, rfl, ?_, id, sends.granted, sends.sinkGranted⟩
    intro awaiting
    simp only [RocketBiDiClientCallback.serve,
      RocketBiDiClientCallback.onFirstResponseError] at awaiting
    cases state : callback.state <;> simp [state, BidirectionalStreamState.onFirstResponseError]
      at awaiting ⊢
  | onSinkCancel =>
    have sends : ∀ callback : RocketBiDiClientCallback,
        Calm callback callback [.send .cancel] := fun _ => .refl rfl rfl
    simp only [RocketBiDiClientCallback.serve, RocketBiDiClientCallback.onSinkCancel]
    split
    · exact .refl rfl rfl
    · exact (Calm.closeSink.trans (sends _)).aliveOrFree
  | onSinkRequestN n => exact (asks n rfl).elim
  | onStreamNext => exact (next rfl).elim
  | onStreamError encoding =>
    have sends : ∀ callback : RocketBiDiClientCallback,
        Calm callback callback [.send encoding.frame] := by
      intro callback
      cases encoding <;> exact .refl rfl rfl
    exact ((Calm.closeStream false).trans (sends _)).aliveOrFree
  | onStreamComplete =>
    have sends : ∀ callback : RocketBiDiClientCallback,
        Calm callback callback [.send (.payload false true .value)] := fun _ => .refl rfl rfl
    exact ((Calm.closeStream false).trans (sends _)).aliveOrFree

theorem calm_handleFrame {frame : BiDiFrame} (asks : ∀ n, frame ≠ .requestN n)
    (brings : ∀ complete, frame = .payload true complete .value →
      callback.state.isSinkOpen = false) :
    Calm callback (callback.handleFrame frame).1 (callback.handleFrame frame).2 := by
  have nothing : Calm callback callback [] := .refl rfl rfl
  have closes : Calm callback callback [.close] := .refl rfl rfl
  cases frame with
  | payload next complete content =>
    simp only [RocketBiDiClientCallback.handleFrame, RocketBiDiClientCallback.handlePayload]
    split
    · exact closes
    · split
      · exact nothing
      next isOpen =>
        split
        next isNext =>
          split
          · exact calm_onSinkError callback
          next value =>
            have closed := brings complete (by simp_all)
            simp [closed] at isOpen
        next =>
          split
          · exact calm_onSinkComplete callback
          · exact nothing
  | error canceled =>
    simp only [RocketBiDiClientCallback.handleFrame, RocketBiDiClientCallback.handleError]
    split
    · split
      · exact ⟨rfl, rfl, rfl, nofun, id, Int.le_of_eq rfl, rfl⟩
      · exact closes
    · split
      · exact calm_onSinkError callback
      · exact nothing
  | requestN n => exact (asks n rfl).elim
  | cancel =>
    simp only [RocketBiDiClientCallback.handleFrame]
    split
    · exact closes
    · split
      · exact calm_onStreamCancel callback
      · exact nothing
  | ext ignore =>
    simp only [RocketBiDiClientCallback.handleFrame]
    split
    · exact closes
    · split
      · exact nothing
      · exact closes

theorem calm_callbackReturns :
    Calm callback callback.callbackReturns.1 callback.callbackReturns.2 := by
  have returns : Calm callback { callback with running := .none } [] := Calm.running (.refl rfl rfl) _
  unfold RocketBiDiClientCallback.callbackReturns
  split
  · exact returns
  · dsimp only
    split
    · exact returns.trans (calm_onSinkComplete _)
    · exact returns
  next alive _ =>
    have ends : Calm { callback with running := .none } { callback with running := .none }
        ((if alive then [.onSinkComplete] else []) ++ [.freeStream]) := by
      cases alive <;> exact .refl rfl rfl
    exact returns.trans ends

theorem calm_expire : Calm callback callback.expire.1 callback.expire.2 := by
  have cancelled : Calm callback callback.cancelSinkTimeout [] :=
    ⟨rfl, map_cancelTimeout _, rfl, id, id, Int.le_of_eq rfl, rfl⟩
  unfold RocketBiDiClientCallback.expire
  split
  · exact cancelled
  · refine ⟨rfl, map_cancelTimeout _, rfl, ?_, nofun, ?_, ?_⟩
    · cases state : callback.state <;>
        simp [BidirectionalStreamState.isSinkOpen, BidirectionalStreamState.isStreamOpen,
          BidirectionalStreamState.onSinkCancel, BidirectionalStreamState.onStreamCancel,
          BidirectionalStreamState.closeSink, BidirectionalStreamState.closeStream]
    · cases callback.state <;> exact Int.le_of_eq rfl
    · cases callback.state <;> rfl

theorem calm_handleConnectionClose :
    Calm callback callback.handleConnectionClose.1 callback.handleConnectionClose.2 := by
  unfold RocketBiDiClientCallback.handleConnectionClose
  dsimp only
  split
  · exact ⟨rfl, map_cancelTimeout _, rfl, id, nofun, Int.le_of_eq rfl, rfl⟩
  · refine ⟨rfl, map_cancelTimeout _, rfl, id, nofun, ?_, ?_⟩
    · cases callback.state <;> exact Int.le_of_eq rfl
    · cases callback.state <;> rfl

end

variable {initialTokens : Int32} {config : BiDiConfig} {event : BiDiServerEvent}

theorem counted_start (initialTokens : Int32) (chunkTimeout : Bool) :
    Counted initialTokens (start initialTokens chunkTimeout) := by
  refine ⟨rfl, Int.le_of_eq rfl, ?_, rfl, Int.le_max_right _ _, fun _ => ⟨rfl, rfl, rfl⟩⟩
  intro timeout present
  cases chunkTimeout with
  | false => cases present
  | true =>
    cases present
    rfl

theorem Counted.change (counted : Counted initialTokens config)
    {middle : RocketBiDiClientCallback} {calls more : List BiDiServerCall}
    (split : (config.callback.step event).2 = calls ++ more)
    (calm : Calm middle (config.callback.step event).1 more)
    (stream : middle.streamTokens.toNat = config.callback.streamTokens.toNat +
      initialCredit config.callback event + requestN config.callback event - payloads event)
    (given : granted calls ≤ initialCredit config.callback event + requestN config.callback event)
    (sink : ∀ timeout ∈ middle.sinkTimeout,
      timeout.credits.toNat = sinkGranted config.calls + sinkGranted calls)
    (tokens : middle.initialTokens = config.callback.initialTokens)
    (bounded : config.initial + initialCredit config.callback event ≤ max initialTokens.toInt 0)
    (once : middle.state = .awaitingFirstResponse →
      middle.serverCallback = false ∧ config.initial + initialCredit config.callback event = 0 ∧
        config.requested + requestN config.callback event = 0) :
    Counted initialTokens (config.step event) := by
  constructor
  · have before := counted.stream
    simp only [step, calm.stream]
    push_cast
    omega
  · have before := counted.given
    have none := calm.granted
    simp only [step, split, granted_append]
    omega
  · intro timeout present
    have credits := calm.sink
    rw [show (config.callback.step event).1.sinkTimeout = some timeout from present,
      Option.map_some] at credits
    obtain ⟨timeout', before, same⟩ := Option.map_eq_some_iff.mp credits.symm
    simp only [step, split, sinkGranted_append, calm.sinkGranted, ← same, sink timeout' before,
      Int.add_zero]
  · exact calm.tokens.trans (tokens.trans counted.tokens)
  · exact bounded
  · intro awaiting
    obtain ⟨unready, initial, requested⟩ := once (calm.awaiting awaiting)
    refine ⟨?_, initial, requested⟩
    cases ready : (config.step event).callback.serverCallback with
    | false => rfl
    | true =>
      rw [calm.ready ready] at unready
      cases unready

theorem Counted.calm (counted : Counted initialTokens config)
    (calm : Calm config.callback (config.callback.step event).1 (config.callback.step event).2)
    (first : initialCredit config.callback event = 0)
    (asks : requestN config.callback event = 0) (sends : payloads event = 0) :
    Counted initialTokens (config.step event) := by
  refine counted.change (List.nil_append _).symm calm ?_ ?_ ?_ rfl ?_ ?_
  · rw [first, asks, sends]
    simp
  · rw [first, asks]
    exact Int.le_refl 0
  · intro timeout present
    rw [counted.sink timeout present, sinkGranted_nil, Int.add_zero]
  · rw [first, Int.add_zero]
    exact counted.bounded
  · rw [first, asks, Int.add_zero, Int.add_zero]
    exact counted.once

/-- A positive number of a frame brings as many tokens. -/
theorem tokens_add (counter : UInt64) {n : Int32} (positive : 0 < n.toInt)
    (fits : counter.toNat + n.toInt < 2 ^ 64) :
    ((counter + n.toInt64.toUInt64).toNat : Int) = counter.toNat + n.toInt :=
  toNat_add_signExtend (by omega) fits

theorem calm_op {op : BiDiServerOp} (next : op ≠ .onStreamNext) (asks : ∀ n, op ≠ .onSinkRequestN n)
    (first : op = .onFirstResponse → config.callback.state = .cancelledEarly) :
    Calm config.callback (config.callback.step (.op op)).1 (config.callback.step (.op op)).2 := by
  have serves := calm_serve config.callback next asks first
  simp only [RocketBiDiClientCallback.step]
  split
  · exact serves
  · exact serves.noteReturned _

theorem aliveOrFree_split (callback : RocketBiDiClientCallback) (calls : List BiDiServerCall) :
    ∃ more, (callback.aliveOrFree calls).2.1 = calls ++ more ∧
      Calm callback (callback.aliveOrFree calls).1 more := by
  unfold RocketBiDiClientCallback.aliveOrFree
  split
  · exact ⟨[], (List.append_nil calls).symm, .refl rfl rfl⟩
  · exact ⟨[.freeStream], rfl, .refl rfl rfl⟩

/-- The calls of a first response. -/
def firstResponse (initialTokens : Int32) : List BiDiServerCall :=
  .send (.payload true false .value) ::
    if 0 < initialTokens then [.onStreamRequestN initialTokens] else []

theorem granted_firstResponse (initialTokens : Int32) :
    granted (firstResponse initialTokens) = max initialTokens.toInt 0 := by
  have zero : (0 : Int32).toInt = 0 := rfl
  have sends : credit (.send (.payload true false .value)) = 0 := rfl
  rw [firstResponse, granted_cons, sends, Int.zero_add]
  split
  next positive =>
    have more := Int32.lt_iff_toInt_lt.mp positive
    have all : granted [.onStreamRequestN initialTokens] = initialTokens.toInt := Int.add_zero _
    rw [all]
    omega
  next notPositive =>
    have less := Int32.le_iff_toInt_le.mp (Int32.not_lt.mp notPositive)
    rw [granted_nil]
    omega

theorem sinkGranted_firstResponse (initialTokens : Int32) :
    sinkGranted (firstResponse initialTokens) = 0 := by
  unfold firstResponse
  split <;> rfl

theorem step_onFirstResponse {callback : RocketBiDiClientCallback}
    (awaiting : callback.state = .awaitingFirstResponse) (idle : callback.running = .none) :
    callback.step (.op .onFirstResponse) = (if 0 < callback.initialTokens then
        { callback with
          serverCallback := true
          state := .streamAndSinkOpen
          timeoutCallback := false
          streamTokens := callback.streamTokens + callback.initialTokens.toInt64.toUInt64 }
      else { callback with serverCallback := true, state := .streamAndSinkOpen },
        firstResponse callback.initialTokens) := by
  have notCancelled : callback.state ≠ .cancelledEarly := by
    rw [awaiting]
    nofun
  simp only [RocketBiDiClientCallback.step, RocketBiDiClientCallback.serve,
    RocketBiDiClientCallback.onFirstResponse, if_neg notCancelled, idle, if_true, firstResponse]
  split
  next positive =>
    have notNegative : ¬ callback.initialTokens ≤ 0 := Int32.not_le.mpr positive
    simp [RocketBiDiClientCallback.onStreamRequestN, notNegative, awaiting,
      BidirectionalStreamState.onFirstResponseSent]
  next => simp [awaiting, BidirectionalStreamState.onFirstResponseSent]

theorem Counted.onFirstResponse (counted : Counted initialTokens config)
    (allowed : config.Allowed (.op .onFirstResponse)) :
    Counted initialTokens (config.step (.op .onFirstResponse)) := by
  by_cases cancelled : config.callback.state = .cancelledEarly
  · refine counted.calm (calm_op nofun nofun fun _ => cancelled) ?_ rfl rfl
    simp [initialCredit, cancelled]
  · have awaiting : config.callback.state = .awaitingFirstResponse :=
      allowed.2.2.resolve_right cancelled
    obtain ⟨-, initial, requested⟩ := counted.once awaiting
    have stream := counted.stream
    have empty : config.callback.streamTokens.toNat = 0 := by omega
    have tokens := counted.tokens
    have below := Int32.toInt_lt initialTokens
    have credit : initialCredit config.callback (.op .onFirstResponse) =
        max initialTokens.toInt 0 := by
      simp [initialCredit, awaiting, tokens]
    have none : requestN config.callback (.op .onFirstResponse) = 0 := rfl
    have idle := allowed.2.1
    have answered := step_onFirstResponse awaiting idle
    have calls : (config.callback.step (.op .onFirstResponse)).2 =
        firstResponse initialTokens ++ [] := by
      rw [answered, tokens, List.append_nil]
    have calm : Calm (config.callback.step (.op .onFirstResponse)).1
        (config.callback.step (.op .onFirstResponse)).1 [] := .refl rfl rfl
    refine counted.change calls calm ?_ ?_ ?_ ?_ ?_ ?_
    · rw [answered, credit, tokens]
      by_cases positive : 0 < initialTokens
      · have more : 0 < initialTokens.toInt := Int32.lt_iff_toInt_lt.mp positive
        have added := tokens_add config.callback.streamTokens more (by omega)
        simp only [if_pos positive, added, none, payloads]
        omega
      · have less := Int32.le_iff_toInt_le.mp (Int32.not_lt.mp positive)
        have zero : (0 : Int32).toInt = 0 := rfl
        simp only [if_neg positive, none, payloads]
        omega
    · rw [granted_firstResponse, credit, none, Int.add_zero]
    · intro timeout present
      have same : config.callback.sinkTimeout = some timeout := by
        rw [answered] at present
        split at present <;> exact present
      rw [counted.sink timeout same, sinkGranted_firstResponse, Int.add_zero]
    · rw [answered]
      split <;> rfl
    · rw [initial, credit, Int.zero_add]
    · rw [answered]
      split <;> nofun

theorem Counted.onStreamNext (counted : Counted initialTokens config)
    (holds : config.sent < granted config.calls) :
    Counted initialTokens (config.step (.op .onStreamNext)) := by
  have stream := counted.stream
  have given := counted.given
  have taken := toNat_sub_one config.callback.streamTokens (by omega)
  have none : requestN config.callback (.op .onStreamNext) = 0 := rfl
  have zero : initialCredit config.callback (.op .onStreamNext) = 0 := rfl
  let middle : RocketBiDiClientCallback :=
    { config.callback with
      streamTokens := config.callback.streamTokens - 1
      timeoutCallback := config.callback.timeoutCallback || config.callback.streamTokens - 1 = 0 }
  have sends : Calm middle middle [.send (.payload true false .value)] := .refl rfl rfl
  have calm : Calm middle (config.callback.step (.op .onStreamNext)).1
      (config.callback.step (.op .onStreamNext)).2 := by
    simp only [RocketBiDiClientCallback.step, RocketBiDiClientCallback.serve]
    split
    · exact sends.aliveOrFree
    · exact sends.aliveOrFree.noteReturned _
  refine counted.change (List.nil_append _).symm calm ?_ (Int.le_refl 0) ?_ rfl ?_ ?_
  · simp only [middle, taken, none, zero, payloads]
    omega
  · intro timeout present
    rw [counted.sink timeout present, sinkGranted_nil, Int.add_zero]
  · rw [zero, Int.add_zero]
    exact counted.bounded
  · rw [zero, none, Int.add_zero, Int.add_zero]
    exact counted.once

theorem Counted.onSinkRequestN (counted : Counted initialTokens config) {n : Int32}
    (positive : 0 < n.toInt) (fits : config.CreditFits (.op (.onSinkRequestN n))) :
    Counted initialTokens (config.step (.op (.onSinkRequestN n))) := by
  have none : requestN config.callback (.op (.onSinkRequestN n)) = 0 := rfl
  have zero : initialCredit config.callback (.op (.onSinkRequestN n)) = 0 := rfl
  let middle : RocketBiDiClientCallback :=
    { config.callback with
      sinkTimeout := config.callback.sinkTimeout.map fun timeout =>
        timeout.incCredits n.toInt64.toUInt64 }
  obtain ⟨more, split, calm⟩ := aliveOrFree_split middle [.send (.requestN n)]
  have splits : (config.callback.step (.op (.onSinkRequestN n))).2 =
      [.send (.requestN n)] ++ more := split
  have calms : Calm middle (config.callback.step (.op (.onSinkRequestN n))).1 more := by
    simp only [RocketBiDiClientCallback.step, RocketBiDiClientCallback.serve]
    split
    · exact calm
    · exact calm.noteReturned _
  refine counted.change splits calms ?_ (Int.le_refl 0) ?_ rfl ?_ ?_
  · rw [none, zero]
    simp [middle, payloads]
  · intro timeout present
    obtain ⟨before, held, rfl⟩ := Option.map_eq_some_iff.mp present
    have added := tokens_add _ positive (fits before held)
    have asked : sinkGranted [.send (.requestN n)] = n.toInt := Int.add_zero _
    rw [asked, ← counted.sink before held]
    exact added
  · rw [zero, Int.add_zero]
    exact counted.bounded
  · rw [zero, none, Int.add_zero, Int.add_zero]
    exact counted.once

theorem Counted.handleRequestN (counted : Counted initialTokens config) {n : Int32}
    (fits : config.CreditFits (.handleFrame (.requestN n))) :
    Counted initialTokens (config.step (.handleFrame (.requestN n))) := by
  have first : initialCredit config.callback (.handleFrame (.requestN n)) = 0 := rfl
  have zero : (0 : Int32).toInt = 0 := rfl
  by_cases handled : config.callback.serverCallback ∧ config.callback.state.isStreamOpen
  · have asked : requestN config.callback (.handleFrame (.requestN n)) = max n.toInt 0 := by
      simp [requestN, handled]
    have steps : config.callback.step (.handleFrame (.requestN n)) =
        config.callback.onStreamRequestN n := by
      simp [RocketBiDiClientCallback.step, RocketBiDiClientCallback.handleFrame, handled]
    have calls : (config.callback.step (.handleFrame (.requestN n))).2 =
        [.onStreamRequestN n] ++ [] := by
      rw [steps, RocketBiDiClientCallback.onStreamRequestN]
      split <;> rfl
    have calm : Calm (config.callback.step (.handleFrame (.requestN n))).1
        (config.callback.step (.handleFrame (.requestN n))).1 [] := .refl rfl rfl
    have all : granted [.onStreamRequestN n] = n.toInt := Int.add_zero _
    have quiet : sinkGranted [.onStreamRequestN n] = 0 := rfl
    refine counted.change calls calm ?_ ?_ ?_ ?_ ?_ ?_
    · rw [steps, RocketBiDiClientCallback.onStreamRequestN, asked, first]
      split
      next notPositive =>
        have less := Int32.le_iff_toInt_le.mp notPositive
        simp only [payloads]
        omega
      next positive =>
        have more := Int32.lt_iff_toInt_lt.mp (Int32.not_le.mp positive)
        have added := tokens_add _ more fits
        simp only [added, payloads]
        omega
    · rw [all, first, asked]
      omega
    · intro timeout present
      have same : config.callback.sinkTimeout = some timeout := by
        rw [steps, RocketBiDiClientCallback.onStreamRequestN] at present
        split at present <;> exact present
      rw [counted.sink timeout same, quiet, Int.add_zero]
    · rw [steps, RocketBiDiClientCallback.onStreamRequestN]
      split <;> rfl
    · rw [first, Int.add_zero]
      exact counted.bounded
    · intro awaiting
      have before : config.callback.state = .awaitingFirstResponse := by
        rw [steps, RocketBiDiClientCallback.onStreamRequestN] at awaiting
        split at awaiting <;> exact awaiting
      have unready := (counted.once before).1
      rw [handled.1] at unready
      cases unready
  · have asked : requestN config.callback (.handleFrame (.requestN n)) = 0 := by
      rw [requestN, if_neg handled]
    refine counted.calm ?_ rfl asked rfl
    simp only [RocketBiDiClientCallback.step, RocketBiDiClientCallback.handleFrame]
    split
    · exact .refl rfl rfl
    next ready =>
      split
      next streamOpen => exact (handled ⟨by simpa using ready, streamOpen⟩).elim
      next => exact .refl rfl rfl

theorem Counted.sinkPayload (counted : Counted initialTokens config) {complete : Bool}
    (isOpen : config.callback.state.isSinkOpen = true)
    (fits : config.CreditFits (.handleFrame (.payload true complete .value))) :
    Counted initialTokens (config.step (.handleFrame (.payload true complete .value))) := by
  cases ready : config.callback.serverCallback with
  | false =>
    refine counted.calm ?_ rfl rfl rfl
    simp only [RocketBiDiClientCallback.step, RocketBiDiClientCallback.handleFrame,
      RocketBiDiClientCallback.handlePayload, ready]
    exact .refl rfl rfl
  | true =>
    let middle := config.callback.onSinkNext.1
    have calls : (config.callback.step (.handleFrame (.payload true complete .value))).2 =
        [.onSinkNext] ++ [] := by
      simp [RocketBiDiClientCallback.step, RocketBiDiClientCallback.handleFrame,
        RocketBiDiClientCallback.handlePayload, ready, isOpen,
        RocketBiDiClientCallback.onSinkNext]
    have calm : Calm middle
        (config.callback.step (.handleFrame (.payload true complete .value))).1 [] := by
      simp only [RocketBiDiClientCallback.step, RocketBiDiClientCallback.handleFrame,
        RocketBiDiClientCallback.handlePayload, ready, isOpen]
      exact Calm.running (.refl rfl rfl) _
    have first : initialCredit config.callback
        (.handleFrame (.payload true complete .value)) = 0 := rfl
    have none : requestN config.callback (.handleFrame (.payload true complete .value)) = 0 := rfl
    refine counted.change calls calm ?_ (Int.le_refl 0) ?_ rfl ?_ ?_
    · rw [first, none]
      simp [middle, payloads, RocketBiDiClientCallback.onSinkNext]
    · intro timeout present
      obtain ⟨before, held, rfl⟩ := Option.map_eq_some_iff.mp present
      have taken := toNat_sub_one _ (fits isOpen before held)
      have used : sinkGranted [.onSinkNext] = -1 := rfl
      rw [used, ← counted.sink before held]
      exact taken
    · rw [first, Int.add_zero]
      exact counted.bounded
    · rw [first, none, Int.add_zero, Int.add_zero]
      exact counted.once

theorem counted_step (counted : Counted initialTokens config) (allowed : config.Allowed event)
    (fits : config.CreditFits event) : Counted initialTokens (config.step event) := by
  cases event with
  | op op =>
    cases op with
    | onFirstResponse => exact counted.onFirstResponse allowed
    | onStreamNext => exact counted.onStreamNext allowed
    | onSinkRequestN n => exact counted.onSinkRequestN allowed fits
    | onFirstResponseError _ | onSinkCancel | onStreamError _ | onStreamComplete =>
      exact counted.calm (calm_op nofun nofun nofun) rfl rfl rfl
  | handleFrame frame =>
    by_cases asks : ∃ n, frame = .requestN n
    · obtain ⟨n, rfl⟩ := asks
      exact counted.handleRequestN fits
    · by_cases brings : ∃ complete, frame = .payload true complete .value ∧
          config.callback.state.isSinkOpen = true
      · obtain ⟨complete, rfl, isOpen⟩ := brings
        exact counted.sinkPayload isOpen fits
      · refine counted.calm (calm_handleFrame _ (by simpa using asks) ?_) rfl ?_ rfl
        · intro complete same
          simpa [same] using brings
        · cases frame with
          | requestN n => exact (asks ⟨n, rfl⟩).elim
          | _ => rfl
  | callbackReturns => exact counted.calm (calm_callbackReturns _) rfl rfl rfl
  | timeoutExpired | sinkChunkTimeoutExpired => exact counted.calm (calm_expire _) rfl rfl rfl
  | connectionClose => exact counted.calm (calm_handleConnectionClose _) rfl rfl rfl

/-- What the handled frames ask for is some of what the frames ask for. -/
theorem requested_le (events : List BiDiServerEvent) (config : BiDiConfig) :
    (events.foldl step config).requested ≤
      config.requested + ((events.filterMap frameN).map fun n => max n.toInt 0).sum := by
  rw [← sum_map_getD frameN fun n => max n.toInt 0]
  refine foldl_measure_le BiDiConfig.requested ?_ events config
  intro config event
  simp only [step]
  unfold requestN frameN
  grind

end BiDiConfig

/-! ## Whole runs -/

/-- The frames are some first ones of those that a client sends whose application asks for
these numbers of payloads. -/
structure Asked (initialRequestN : Int32) (later : List Int32) (frame : Int32)
    (frames : List Int32) : Prop where
  request : requestFrameN initialRequestN = some frame
  inOrder : frames <+: later.flatMap sendRequestN
  natural : ∀ n ∈ later, 0 ≤ n.toInt

theorem Asked.sum_le {initialRequestN frame : Int32} {later frames : List Int32}
    (asked : Asked initialRequestN later frame frames) :
    (frames.map fun n => max n.toInt 0).sum ≤ (later.map Int32.toInt).sum := by
  obtain ⟨rest, all⟩ := asked.inOrder
  have sent : ((later.flatMap sendRequestN).map fun n => max n.toInt 0).sum =
      (later.map Int32.toInt).sum := by
    have natural := asked.natural
    clear asked all
    induction later with
    | nil => rfl
    | cons n later ih =>
      have positive := natural n (by simp)
      have tail := ih fun m member => natural m (List.mem_cons_of_mem n member)
      have first : ((sendRequestN n).map fun n => max n.toInt 0).sum = n.toInt := by
        unfold sendRequestN
        split
        next less =>
          have less := Int32.le_iff_toInt_le.mp less
          have zero : (0 : Int32).toInt = 0 := rfl
          simp only [List.map_nil, List.sum_nil]
          omega
        next => simpa using positive
      rw [List.flatMap_cons, List.map_append, List.sum_append, first, tail, List.map_cons,
        List.sum_cons]
  have others : 0 ≤ (rest.map fun n => max n.toInt 0).sum := by
    apply List.sum_nonneg
    intro x member
    obtain ⟨n, -, rfl⟩ := List.mem_map.mp member
    exact Int.le_max_right _ _
  rw [← sent, ← all, List.map_append, List.sum_append]
  omega

theorem Asked.frame_le {initialRequestN frame : Int32} {later frames : List Int32}
    (asked : Asked initialRequestN later frame frames) :
    0 < frame.toInt ∧ frame.toInt ≤ initialRequestN.toInt + 1 ∧
      (initialRequestN = Int32.maxValue → frame.toInt ≤ initialRequestN.toInt) := by
  have request := asked.request
  have zero : (0 : Int32).toInt = 0 := rfl
  unfold requestFrameN at request
  split at request
  next => cases request
  next positive =>
    cases request
    have more := Int32.lt_iff_toInt_lt.mp (Int32.not_le.mp positive)
    refine ⟨more, ?_, ?_⟩
    · unfold withFirstResponse
      split
      next less =>
        have below := Int32.lt_iff_toInt_lt.mp less
        have above := Int32.le_toInt initialRequestN
        rw [Int32.toInt_maxValue] at below
        have one : (1 : Int32).toInt = 1 := rfl
        rw [Int32.toInt_add, one, Int.bmod_eq_of_le (by omega) (by omega)]
      next => omega
    · rintro rfl
      exact Int.le_refl _

theorem StreamConfig.Counted.sent_le {initialRequestN frame : Int32} {later : List Int32}
    {events : List StreamEvent}
    (counted : Counted frame (events.foldl step (start frame)))
    (asked : Asked initialRequestN later frame (events.filterMap frameN)) :
    (sent (events.foldl step (start frame)).calls : Int) ≤
      initialRequestN.toInt + (later.map Int32.toInt).sum := by
  have handled := requested_le events (start frame)
  have sum := asked.sum_le
  obtain ⟨positive, extra, -⟩ := asked.frame_le
  have nothing : (start frame).requested = 0 := rfl
  cases ready : (events.foldl step (start frame)).callback.serverCallbackReady with
  | false =>
    obtain ⟨-, none, -, unsent⟩ := counted.waiting ready
    omega
  | true =>
    obtain ⟨tokens, -⟩ := counted.counting ready
    omega

theorem BiDiConfig.Counted.sent_le {initialRequestN frame : Int32} {later : List Int32}
    {events : List BiDiServerEvent} {chunkTimeout : Bool}
    (counted : Counted frame (events.foldl step (start frame chunkTimeout)))
    (asked : Asked initialRequestN later frame (events.filterMap frameN))
    (all : initialRequestN = Int32.maxValue) :
    ((events.foldl step (start frame chunkTimeout)).sent : Int) ≤
      initialRequestN.toInt + (later.map Int32.toInt).sum := by
  have handled := requested_le events (start frame chunkTimeout)
  have sum := asked.sum_le
  obtain ⟨positive, -, noExtra⟩ := asked.frame_le
  have nothing : (start frame chunkTimeout).requested = 0 := rfl
  have stream := counted.stream
  have bounded := counted.bounded
  have same := noExtra all
  omega

/-- As long as frames ask for what fits the counters, the counters of both callbacks tell the
credit that is left, and no more payloads are sent than a client has asked for: on a stream, and
on a bidirectional stream when the request asks for as many as it can. -/
theorem flow_control_kept (frame : Int32) : (∀ events, 0 < frame.toInt →
      Run StreamConfig.step StreamConfig.Allowed (.start frame) events →
      Run StreamConfig.step StreamConfig.CreditFits (.start frame) events →
        StreamConfig.Counted frame (events.foldl StreamConfig.step (.start frame)) ∧
        ∀ initialRequestN later,
          Asked initialRequestN later frame (events.filterMap StreamConfig.frameN) →
            (StreamConfig.sent (events.foldl StreamConfig.step (.start frame)).calls : Int) ≤
              initialRequestN.toInt + (later.map Int32.toInt).sum) ∧
    (∀ chunkTimeout events,
      Run BiDiConfig.step BiDiConfig.Allowed (.start frame chunkTimeout) events →
      Run BiDiConfig.step BiDiConfig.CreditFits (.start frame chunkTimeout) events →
        BiDiConfig.Counted frame (events.foldl BiDiConfig.step (.start frame chunkTimeout)) ∧
        ∀ initialRequestN later, initialRequestN = Int32.maxValue →
          Asked initialRequestN later frame (events.filterMap BiDiConfig.frameN) →
            ((events.foldl BiDiConfig.step (.start frame chunkTimeout)).sent : Int) ≤
              initialRequestN.toInt + (later.map Int32.toInt).sum) := by
  constructor
  · intro events positive allowed fits
    have counted := (allowed.and fits).invariant (StreamConfig.counted_start positive)
      fun _ _ counted both => StreamConfig.counted_step positive counted both.1 both.2
    exact ⟨counted, fun _ _ asked => counted.sent_le asked⟩
  · intro chunkTimeout events allowed fits
    have counted := (allowed.and fits).invariant (BiDiConfig.counted_start frame chunkTimeout)
      fun _ _ counted both => BiDiConfig.counted_step counted both.1 both.2
    exact ⟨counted, fun _ _ all asked => counted.sent_le asked all⟩

/-- A stream of two payloads, and a bidirectional one on which the client sends a payload that
it was asked for. -/
theorem flow_control_kept_two : let events : List StreamEvent :=
      [.onFirstResponse false true, .onStreamNext, .requestN 1, .onStreamNext]
    let both : List BiDiServerEvent :=
      [.op .onFirstResponse, .op (.onSinkRequestN 1), .op .onStreamNext,
        .handleFrame (.payload true false .value), .handleFrame (.requestN 5)]
    (StreamConfig.sent (events.foldl StreamConfig.step (.start 2)).calls : Int) ≤
        Int32.toInt 1 + ([1].map Int32.toInt).sum ∧
      ((both.foldl BiDiConfig.step (.start Int32.maxValue true)).sent : Int) ≤
        Int32.maxValue.toInt + ([5].map Int32.toInt).sum := by
  intro events both
  have asked : Asked 1 [1] 2 (events.filterMap StreamConfig.frameN) :=
    ⟨by decide +kernel, by decide +kernel, by simp⟩
  have asks : Asked Int32.maxValue [5] Int32.maxValue (both.filterMap BiDiConfig.frameN) :=
    ⟨by decide +kernel, by decide +kernel, by simp⟩
  have positive : 0 < Int32.toInt 2 := by decide +kernel
  have allowed : Run StreamConfig.step StreamConfig.Allowed (.start 2) events := by
    decide +kernel
  have fits : Run StreamConfig.step StreamConfig.CreditFits (.start 2) events := by
    decide +kernel
  have allowedBoth : Run BiDiConfig.step BiDiConfig.Allowed (.start Int32.maxValue true) both := by
    decide +kernel
  have fitsBoth : Run BiDiConfig.step BiDiConfig.CreditFits (.start Int32.maxValue true) both := by
    decide +kernel
  exact ⟨((flow_control_kept 2).1 events positive allowed fits).2 1 [1] asked,
    ((flow_control_kept Int32.maxValue).2 true both allowedBoth fitsBoth).2 _ [5] rfl asks⟩

/-- A frame that asks for nothing makes the counter of a stream wrap around, and so does one
that takes away more than there is; a bidirectional stream counts the credit for the first
response as one for a payload. -/
theorem credit_wraps :
    ([.onFirstResponse false true].foldl StreamConfig.step (.start 0)).callback.tokens.toNat =
      2 ^ 64 - 1 ∧
    ([.onFirstResponse false true, .requestN (-1)].foldl StreamConfig.step
      (.start 1)).callback.tokens.toNat = 2 ^ 64 - 1 ∧
    requestFrameN 1 = some 2 ∧
    Run BiDiConfig.step BiDiConfig.Allowed (.start 2 false)
      [.op .onFirstResponse, .op .onStreamNext, .op .onStreamNext] ∧
    (([.op .onFirstResponse, .op .onStreamNext, .op .onStreamNext] :
      List BiDiServerEvent).foldl BiDiConfig.step (.start 2 false)).sent = 2 := by
  decide +kernel

end FbThrift.Rocket
