import Mathlib.Data.List.SplitLengths
import FbThrift.Transport.HeaderFormat

/-!
# Headers and the payload behind them

`readString` is to take care not to reach the end of the header section, but nothing checks it: a
count or a length of the section may carry the cursor into the payload.  How far a section reaches
is seen from its own bytes, by a walk over its counts and lengths.  The payload is not read exactly
for the sections that end within, with padding, an unknown info id or an error of their own, and
for those that end with their last byte where the cursors agree.
-/

namespace FbThrift.THeader

open Decoder

/-! ## How far a section reaches -/

/-- The end of a walk over the headers of a section. -/
inductive Reach where
  | within
  | atEnd
  | past
deriving DecidableEq

def Reach.ofHalt : Halt → Reach
  | .within => .within
  | .past => .past

/-- A string: its length, and so many bytes. -/
def walkString : Walk Unit := do
  let sz ← Walk.varint 32
  Walk.skip sz

/-- A pair of strings. -/
def walkHeader : Walk Unit := do
  walkString
  walkString

/-- Info headers: their number, and so many pairs of strings. -/
def walkInfo : Walk Unit := do
  let numKVHeaders ← Walk.varint 32
  Walk.times walkHeader numKVHeaders

/-- One transform. -/
def walkTransform : Walk Unit := do
  let _ ← Walk.varint 32
  pure ()

/-- The transforms: their number, and their ids. -/
def walkTransforms : Walk Unit := do
  let numTransforms ← Walk.varint 16
  Walk.times walkTransform numTransforms

/-- A walk that never goes back. -/
def Ahead (w : Walk Unit) : Prop :=
  ∀ {input rest}, w input = .ok ((), rest) → rest.length ≤ input.length

theorem ahead_varint_bind {bits : Nat} {g : Nat → Walk Unit} (later : ∀ n, Ahead (g n)) :
    Ahead (Walk.varint bits >>= g) := by
  intro input rest ran
  cases walked : Walk.varint bits input with
  | error halt =>
    rw [Walk.bind_of_error walked] at ran
    cases ran
  | ok p =>
    rw [Walk.bind_of_ok walked] at ran
    have first := Walk.varint_shorter walked
    have second := later p.1 ran
    omega

theorem Ahead.then {w w' : Walk Unit} (first : Ahead w) (second : Ahead w') :
    Ahead (w >>= fun _ => w') := by
  intro input rest ran
  cases walked : w input with
  | error halt =>
    rw [Walk.bind_of_error walked] at ran
    cases ran
  | ok p =>
    rw [Walk.bind_of_ok walked] at ran
    have before := first walked
    have after := second ran
    omega

theorem ahead_skip (n : Nat) : Ahead (Walk.skip n) := by
  intro input rest ran
  unfold Walk.skip at ran
  split at ran
  · cases ran
    rw [List.length_drop]
    omega
  · cases ran

theorem Ahead.times {w : Walk Unit} (ahead : Ahead w) (n : Nat) : Ahead (Walk.times w n) := by
  induction n with
  | zero =>
    intro input rest ran
    cases ran
    exact Nat.le_refl _
  | succ n ih => exact ahead.then ih

theorem ahead_walkString : Ahead walkString := ahead_varint_bind ahead_skip

theorem ahead_walkInfo : Ahead walkInfo :=
  ahead_varint_bind (Ahead.times (Ahead.then ahead_walkString ahead_walkString))

/-- The info headers of a section, up to padding, an unknown id or its last byte. -/
def infosReach (input : Bytes) : Reach :=
  if input = [] then .atEnd
  else
    match _id : Walk.varint 32 input with
    | .error halt => .ofHalt halt
    | .ok (infoId, rest) =>
      if infoId = 0 ∨ infoIdEnd ≤ infoId then .within
      else
        match _walked : walkInfo rest with
        | .error halt => .ofHalt halt
        | .ok (_, rest') => infosReach rest'
termination_by input.length
decreasing_by
  have ahead := Walk.varint_shorter _id
  have ahead' := ahead_walkInfo _walked
  omega


/-- The section behind its size. -/
def bodyReach (body : Bytes) : Reach :=
  match Walk.varint 16 body with
  | .error halt => .ofHalt halt
  | .ok (wireProtocol, rest) =>
    if wireProtocol ∈ protocols then
      match walkTransforms rest with
      | .error halt => .ofHalt halt
      | .ok (_, rest') => infosReach rest'
    else .within

/-! ## The walks follow the readers -/

theorem follows_skip (sz : Nat) : Follows (Walk.skip sz) (getString sz) fun _ _ => True where
  ok := by
    intro input b rest ran
    unfold Walk.skip at ran
    split at ran
    next fits =>
      cases ran
      refine ⟨input.take sz, trivial, fun behind => ?_⟩
      unfold getString
      rw [if_pos (by rw [List.length_append]; omega), List.take_append_of_le_length fits,
        List.drop_append_of_le_length fits]
    next => cases ran
  within := by
    intro input ran
    unfold Walk.skip at ran
    split at ran <;> cases ran
  past := by
    intro input ran
    unfold Walk.skip at ran
    split at ran
    next => cases ran
    next short =>
      refine ⟨⟨_, if_neg short⟩, input ++ zeros (sz - input.length), sz - input.length, by omega,
        fun m => ?_⟩
      have length : (input ++ zeros (sz - input.length)).length = sz := by
        rw [List.length_append, length_zeros]
        omega
      rw [zeros_add, ← List.append_assoc]
      unfold getString
      rw [if_pos (by rw [List.length_append, length]; omega), List.take_left' length,
        List.drop_left' length]

theorem onZeros_getString (sz : Nat) : OnZeros (getString sz) := by
  refine ⟨zeros sz, sz, fun m => ?_⟩
  have length : (zeros sz).length = sz := length_zeros sz
  rw [zeros_add]
  unfold getString
  rw [if_pos (by rw [List.length_append, length]; omega), List.take_left' length,
    List.drop_left' length]

theorem onZeros_varint32 : OnZeros (readVarint 32) := onZeros_readVarint (by decide)

theorem onZeros_readString : OnZeros readString := onZeros_varint32.bind onZeros_getString

theorem follows_walkString : Follows walkString readString fun _ _ => True :=
  (follows_varint 32).bind (fun sz _ same => same ▸ follows_skip sz) onZeros_getString

theorem onZeros_readKVHeaders (n : Nat) (headers : StringToStringMap) :
    OnZeros (readKVHeaders n headers) := by
  induction n generalizing headers with
  | zero => exact .pure headers
  | succ n ih =>
    exact onZeros_readString.bind fun key => onZeros_readString.bind fun value =>
      ih (headers.insert key value)

theorem follows_readKVHeaders (n : Nat) (headers : StringToStringMap) :
    Follows (Walk.times walkHeader n) (readKVHeaders n headers) fun _ _ => True := by
  induction n generalizing headers with
  | zero => exact .pure trivial
  | succ n ih =>
    have assoc : Walk.times walkHeader (n + 1) =
        walkString >>= fun _ => walkString >>= fun _ => Walk.times walkHeader n :=
      bind_assoc _ _ _
    rw [assoc]
    refine follows_walkString.bind (fun _ key _ => ?_) fun key =>
      onZeros_readString.bind fun value => onZeros_readKVHeaders n _
    exact follows_walkString.bind (fun _ value _ => ih (headers.insert key value)) fun value =>
      onZeros_readKVHeaders n _

theorem onZeros_readInfoHeaders (headers : StringToStringMap) : OnZeros (readInfoHeaders headers) :=
  onZeros_varint32.bind fun n => onZeros_readKVHeaders n headers

theorem follows_readInfoHeaders (headers : StringToStringMap) :
    Follows walkInfo (readInfoHeaders headers) fun _ _ => True :=
  (follows_varint 32).bind (fun n _ same => same ▸ follows_readKVHeaders n headers) fun n =>
    onZeros_readKVHeaders n headers

theorem follows_readInfo (infoId : Nat) (h : Headers) :
    Follows walkInfo (readInfo infoId h) fun _ _ => True := by
  have whole (headers : StringToStringMap) (set : StringToStringMap → Headers) :
      Follows (walkInfo >>= pure) (readInfoHeaders headers >>= fun m => pure (set m))
        fun _ _ => True :=
    (follows_readInfoHeaders headers).bind (fun _ _ _ => .pure trivial) fun _ => .pure _
  rw [bind_pure] at whole
  unfold readInfo
  split
  · exact whole _ _
  · exact whole _ _

theorem onZeros_readInfo (infoId : Nat) (h : Headers) : OnZeros (readInfo infoId h) := by
  unfold readInfo
  split <;> exact (onZeros_readInfoHeaders _).bind fun _ => .pure _

theorem onZeros_readTransforms (n : Nat) (h : Headers) : OnZeros (readTransforms n h) := by
  induction n generalizing h with
  | zero => exact .pure h
  | succ n ih => exact onZeros_varint32.bind fun transId => ih _

theorem onZeros_readNumTransforms (h : Headers) : OnZeros (readNumTransforms h) :=
  (onZeros_readVarint (by decide)).bind fun n => onZeros_readTransforms n h

theorem follows_readTransforms (n : Nat) (h : Headers) :
    Follows (Walk.times walkTransform n) (readTransforms n h) fun _ _ => True := by
  induction n generalizing h with
  | zero => exact .pure trivial
  | succ n ih =>
    have assoc : Walk.times walkTransform (n + 1) =
        Walk.varint 32 >>= fun _ => Walk.times walkTransform n := bind_assoc _ _ _
    rw [assoc]
    exact (follows_varint 32).bind (fun _ transId _ => ih _) fun transId =>
      onZeros_readTransforms n _

theorem follows_readNumTransforms (h : Headers) :
    Follows walkTransforms (readNumTransforms h) fun _ _ => True :=
  (follows_varint 16).bind (fun n _ same => same ▸ follows_readTransforms n h) fun n =>
    onZeros_readTransforms n h

/-! ## The loop over the info headers -/

theorem readInfos_eq {at_ : Nat → Bool} {c : Bytes} (away : at_ c.length = false) (h : Headers) :
    readInfos at_ c h = (readVarint 32 c >>= fun p =>
      if p.1 = 0 ∨ infoIdEnd ≤ p.1 then .ok h
      else readInfo p.1 h p.2 >>= fun q => readInfos at_ q.2 q.1) := by
  rw [readInfos, if_neg (by rw [away]; exact Bool.false_ne_true)]
  split
  next err read =>
    rw [read]
    rfl
  next infoId c' read =>
    rw [read]
    change _ = ite _ _ _
    split
    next => rfl
    next =>
      split
      next err info =>
        rw [info]
        rfl
      next h' c'' info =>
        rw [info]
        rfl

theorem readInfos_of_info {at_ : Nat → Bool} {c c' c'' : Bytes} {infoId : Nat} {h h' : Headers}
    (away : at_ c.length = false) (id : readVarint 32 c = .ok (infoId, c'))
    (known : ¬ (infoId = 0 ∨ infoIdEnd ≤ infoId)) (info : readInfo infoId h c' = .ok (h', c'')) :
    readInfos at_ c h = readInfos at_ c'' h' := by
  rw [readInfos_eq away, id]
  change ite _ _ _ = _
  rw [if_neg known, info]
  rfl

/-- What the reach of a section says about a reader that is given the bytes behind the section, and
whether the cursors agree at its end. -/
def Decides : Reach → (Bytes → Bool → Option Headers) → Prop
  | .within, run => ∃ out, ∀ behind same, run behind same = out
  | .atEnd, run =>
    (∃ h, ∀ behind, run behind true = some h) ∧
      ∀ behind, (∀ byte ∈ behind, byte = 255) → run behind false = none
  | .past, run =>
    (∀ same, run [] same = none) ∧ ∃ k, 0 < k ∧ ∀ same, ∃ h, run (zeros k) same = some h

/-- The loop with bytes behind the section. -/
def infosRun (input : Bytes) (h : Headers) (behind : Bytes) (same : Bool) : Option Headers :=
  (readInfos (atData behind.length same) (input ++ behind) h).toOption

theorem atData_away {input b : Bytes} (some : input ≠ []) (same : Bool) :
    atData b.length same (input ++ b).length = false := by
  have positive : 0 < input.length := List.length_pos_iff.mpr some
  have other : input.length + b.length ≠ b.length := by omega
  rw [atData, List.length_append, beq_eq_false_iff_ne.mpr other, Bool.false_and]

theorem readVarint_ones {behind : Bytes} (ones : ∀ byte ∈ behind, byte = 255) :
    ∃ err, readVarint 32 behind = .error err := by
  have loop (left shift result : Nat) :
      ∃ err, readVarintLoop 32 left shift result behind = .error err := by
    induction left generalizing behind shift result with
    | zero => exact ⟨_, rfl⟩
    | succ left ih =>
      cases behind with
      | nil => exact ⟨_, rfl⟩
      | cons byte behind =>
        obtain rfl : byte = 255 := ones byte List.mem_cons_self
        rw [readVarintLoop, Run.bind_of_ok (t := behind) (a := 255) rfl]
        exact ih (fun byte inside => ones byte (List.mem_cons_of_mem _ inside)) _ _
  exact loop _ 0 0

/-- At the last byte of the section. -/
theorem decides_atEnd (h : Headers) : Decides .atEnd (infosRun [] h) := by
  refine ⟨⟨h, fun behind => ?_⟩, fun behind ones => ?_⟩
  · have here : atData behind.length true behind.length = true := by simp [atData]
    rw [infosRun, List.nil_append, readInfos, if_pos here]
    rfl
  · have away : atData behind.length false behind.length = false := by simp [atData]
    obtain ⟨err, fails⟩ := readVarint_ones ones
    rw [infosRun, List.nil_append, readInfos_eq away, fails]
    rfl

theorem readInfos_zero {size : Nat} (behind : 1 < size) (same : Bool) (h : Headers) :
    readInfos (atData size same) (zeros 1) h = .ok h := by
  have away : atData size same 1 = false := by
    rw [atData, beq_eq_false_iff_ne.mpr behind.ne, Bool.false_and]
  rw [readInfos_eq (c := zeros 1) away]
  rfl

theorem decides_infos (input : Bytes) (h : Headers) :
    Decides (infosReach input) (infosRun input h) := by
  induction length : input.length using Nat.strong_induction_on generalizing input h with
  | _ size ih =>
    subst length
    rw [infosReach]
    split
    next empty => exact empty ▸ decides_atEnd h
    next nonempty =>
      have step (behind : Bytes) (same : Bool) :=
        readInfos_eq (atData_away (b := behind) nonempty same) h
      split
      next halt walked =>
        cases halt with
        | within =>
          obtain ⟨err, fails⟩ := (follows_varint 32).within walked
          refine ⟨none, fun behind same => ?_⟩
          rw [infosRun, step, fails]
          rfl
        | past =>
          obtain ⟨⟨err, fails⟩, n, k, positive, reads⟩ := (follows_varint 32).past walked
          obtain ⟨h', k', reads'⟩ := onZeros_readInfo n h
          refine ⟨fun same => ?_, k + (k' + 1), by omega, fun same => ?_⟩
          · rw [infosRun, step, List.append_nil, fails]
            rfl
          · rw [infosRun, step, reads, length_zeros]
            change ∃ out, (ite _ _ _ : Except String Headers).toOption = some out
            split
            · exact ⟨h, rfl⟩
            · refine ⟨h', ?_⟩
              rw [reads' 1]
              change (readInfos _ (zeros 1) h').toOption = _
              rw [readInfos_zero (by omega)]
              rfl
      next infoId rest walked =>
        obtain ⟨_, rfl, reads⟩ := (follows_varint 32).ok walked
        split
        next stop =>
          refine ⟨some h, fun behind same => ?_⟩
          rw [infosRun, step, reads]
          change (ite _ _ _ : Except String Headers).toOption = _
          rw [if_pos stop]
          rfl
        next go =>
          have inner (behind : Bytes) (same : Bool) : infosRun input h behind same =
                (readInfo infoId h (rest ++ behind) >>= fun q =>
                  readInfos (atData behind.length same) q.2 q.1).toOption := by
            rw [infosRun, step, reads]
            change (ite _ _ _ : Except String Headers).toOption = _
            rw [if_neg go]
          split
          next halt walked' =>
            cases halt with
            | within =>
              obtain ⟨err, fails⟩ := (follows_readInfo infoId h).within walked'
              refine ⟨none, fun behind same => ?_⟩
              rw [inner, fails]
              rfl
            | past =>
              obtain ⟨⟨err, fails⟩, h', k, positive, reads'⟩ :=
                (follows_readInfo infoId h).past walked'
              refine ⟨fun same => ?_, k + 1, by omega, fun same => ⟨h', ?_⟩⟩
              · rw [inner, List.append_nil, fails]
                rfl
              · rw [inner, reads' 1, length_zeros]
                change (readInfos _ (zeros 1) h').toOption = _
                rw [readInfos_zero (by omega)]
                rfl
          next u rest' walked' =>
            obtain ⟨h', -, reads'⟩ := (follows_readInfo infoId h).ok walked'
            have ahead := Walk.varint_shorter walked
            have ahead' := ahead_walkInfo walked'
            have later := ih rest'.length (by omega) rest' h' rfl
            have same : infosRun input h = infosRun rest' h' := by
              funext behind same
              rw [inner, reads']
              rfl
            rwa [same]

/-! ## The whole section -/

theorem Decides.map {reach : Reach} {run : Bytes → Bool → Option Headers}
    (decides : Decides reach run) (f : Headers → Headers) :
    Decides reach fun behind same => (run behind same).map f := by
  cases reach with
  | within =>
    obtain ⟨out, fixed⟩ := decides
    exact ⟨out.map f, fun behind same => congrArg (Option.map f) (fixed behind same)⟩
  | atEnd =>
    obtain ⟨⟨h, agree⟩, differ⟩ := decides
    exact ⟨⟨f h, fun behind => congrArg (Option.map f) (agree behind)⟩,
      fun behind ones => congrArg (Option.map f) (differ behind ones)⟩
  | past =>
    obtain ⟨fails, k, positive, reads⟩ := decides
    refine ⟨fun same => congrArg (Option.map f) (fails same), k, positive, fun same => ?_⟩
    obtain ⟨h, read⟩ := reads same
    exact ⟨f h, congrArg (Option.map f) read⟩

theorem toOption_infos (x : Except String Headers) :
    (do let h ← x; .ok h.mergePersistent : Except String Headers).toOption =
      x.toOption.map Headers.mergePersistent := by
  cases x <;> rfl

variable (writeTrans : List Nat) (persistentReadHeaders : StringToStringMap)

theorem readBody_of_known {at_ : Nat → Bool} {c rest : Bytes} {wireProtocol : Nat}
    (read : readVarint 16 c = .ok (wireProtocol, rest)) (known : wireProtocol ∈ protocols) :
    readBody at_ writeTrans persistentReadHeaders c =
      (readNumTransforms ⟨wireProtocol, [], writeTrans, none, persistentReadHeaders⟩ rest >>=
        fun q => do
          let h ← readInfos at_ q.2 q.1
          .ok h.mergePersistent) := by
  rw [readBody, read]
  exact if_pos known

/-- The headers of a section with bytes behind it. -/
def bodyRun (body : Bytes) (behind : Bytes) (same : Bool) : Option Headers :=
  (readBody (atData behind.length same) writeTrans persistentReadHeaders (body ++ behind)).toOption

theorem decides_body {body : Bytes} (words : body = [] ∨ varintMaxBytes 16 ≤ body.length) :
    Decides (bodyReach body) (bodyRun writeTrans persistentReadHeaders body) := by
  let fresh (wireProtocol : Nat) : Headers :=
    ⟨wireProtocol, [], writeTrans, none, persistentReadHeaders⟩
  rw [bodyReach]
  split
  next halt walked =>
    cases halt with
    | within =>
      obtain ⟨err, fails⟩ := (follows_varint 16).within walked
      refine ⟨none, fun behind same => ?_⟩
      rw [bodyRun, readBody, fails]
      rfl
    | past =>
      have empty : body = [] := by
        refine words.resolve_right fun long => ?_
        unfold Walk.varint at walked
        split at walked
        next => cases walked
        next =>
          rw [if_neg (by omega)] at walked
          cases walked
      subst empty
      obtain ⟨h', k, reads⟩ := onZeros_readNumTransforms (fresh 0)
      refine ⟨fun same => rfl, 1 + (k + 1), by omega, fun same => ⟨h'.mergePersistent, ?_⟩⟩
      have protocol : readVarint 16 (zeros (1 + (k + 1))) = .ok (0, zeros (k + 1)) := by
        rw [zeros_add 1 (k + 1)]
        rfl
      rw [bodyRun, List.nil_append, readBody_of_known _ _ protocol (by decide), length_zeros,
        reads 1]
      change (readInfos _ (zeros 1) h' >>= _ : Except String Headers).toOption = _
      rw [readInfos_zero (by omega)]
      rfl
  next wireProtocol rest walked =>
    obtain ⟨_, rfl, reads⟩ := (follows_varint 16).ok walked
    split
    next known =>
      have inner (behind : Bytes) (same : Bool) :
          bodyRun writeTrans persistentReadHeaders body behind same =
            (readNumTransforms (fresh wireProtocol) (rest ++ behind) >>= fun q => do
              let h ← readInfos (atData behind.length same) q.2 q.1
              .ok h.mergePersistent : Except String Headers).toOption := by
        rw [bodyRun, readBody_of_known _ _ (reads behind) known]
      have transforms := follows_readNumTransforms (fresh wireProtocol)
      split
      next halt walked' =>
        cases halt with
        | within =>
          obtain ⟨err, fails⟩ := transforms.within walked'
          refine ⟨none, fun behind same => ?_⟩
          rw [inner, fails]
          rfl
        | past =>
          obtain ⟨⟨err, fails⟩, h', k, positive, reads'⟩ := transforms.past walked'
          refine ⟨fun same => ?_, k + 1, by omega, fun same => ⟨h'.mergePersistent, ?_⟩⟩
          · rw [inner, List.append_nil, fails]
            rfl
          · rw [inner, reads' 1, length_zeros]
            change (readInfos _ (zeros 1) h' >>= _ : Except String Headers).toOption = _
            rw [readInfos_zero (by omega)]
            rfl
      next u rest' walked' =>
        obtain ⟨h', -, reads'⟩ := transforms.ok walked'
        have same : bodyRun writeTrans persistentReadHeaders body =
            fun behind same => (infosRun rest' h' behind same).map Headers.mergePersistent := by
          funext behind same
          rw [inner, reads']
          exact toOption_infos _
        rw [same]
        exact (decides_infos rest' h').map _
    next unknown =>
      refine ⟨none, fun behind same => ?_⟩
      rw [bodyRun, readBody, reads]
      change (ite _ _ _ : Except String Headers).toOption = _
      rw [if_neg unknown]
      rfl

/-- The declared header section of a frame: what is read before it, its size in words, and so
many words. -/
structure HeaderSection where
  front : Bytes
  words : UInt16
  body : Bytes
  front_length : front.length = 8
  body_length : body.length = 4 * words.toNat

namespace HeaderSection

variable (sect : HeaderSection)

def bytes : Bytes := sect.front ++ (writeBE 2 sect.words.toNat ++ sect.body)

/-- The frame begins with the section. -/
def Begins (frame : List Bytes) : Prop := sect.bytes <+: frame.flatten

def reach : Reach := bodyReach sect.body

variable {sect} {writeTrans persistentReadHeaders}

theorem length_bytes : sect.bytes.length = 4 * sect.words.toNat + 10 := by
  rw [bytes, List.length_append, List.length_append, sect.front_length, sect.body_length,
    length_writeBE]
  omega

theorem readHeaderSize_bytes (behind : Bytes) :
    readHeaderSize (sect.bytes ++ behind) = .ok (sect.bytes.length, sect.body ++ behind) := by
  have front := decodes_take sect.front
  rw [sect.front_length] at front
  have word : sect.words.toNat < 256 ^ 2 := sect.words.toNat_lt
  rw [length_bytes, bytes, List.append_assoc, List.append_assoc, readHeaderSize,
    Run.bind_of_ok (front _), Run.bind_of_ok (decodes_readBE word _)]
  rfl

theorem readHeaders_begins (cursors : Cursors) {frame : List Bytes} {behind : Bytes}
    (begins : frame.flatten = sect.bytes ++ behind) :
    (readHeaders cursors frame writeTrans persistentReadHeaders).toOption =
      bodyRun writeTrans persistentReadHeaders sect.body behind
        (cursors.same (frame.map List.length) sect.bytes) := by
  have long : ¬ (sect.bytes ++ behind).length < sect.bytes.length := by
    rw [List.length_append]
    omega
  have left : (sect.bytes ++ behind).length - sect.bytes.length = behind.length := by
    rw [List.length_append]
    omega
  rw [readHeaders, begins, readHeaderSize_bytes]
  change (ite _ _ _ : Except String Headers).toOption = _
  rw [if_neg long, left, List.take_left, bodyRun]

/-- The words behind the section's size are none, or as many bytes as a protocol id takes. -/
theorem body_words : sect.body = [] ∨ varintMaxBytes 16 ≤ sect.body.length := by
  have length := sect.body_length
  change sect.body = [] ∨ 3 ≤ sect.body.length
  cases words : sect.words.toNat with
  | zero => exact .inl (List.length_eq_zero_iff.mp (by omega))
  | succ n => exact .inr (by omega)

theorem decides_section : Decides sect.reach (bodyRun writeTrans persistentReadHeaders sect.body) :=
  decides_body writeTrans persistentReadHeaders body_words

/-- In one buffer the end of the section is inside the buffer. -/
theorem same_of_single (cursors : Cursors) {behind : Bytes} (some : behind ≠ []) :
    cursors.same ([sect.bytes ++ behind].map List.length) sect.bytes = true := by
  have positive : 0 < behind.length := List.length_pos_iff.mpr some
  have size : sect.bytes.length = 4 * sect.words.toNat + 10 := length_bytes
  refine cursors.inside _ _ fun k => ?_
  cases k with
  | zero =>
    rw [List.take_zero, List.sum_nil]
    omega
  | succ k =>
    rw [List.map_singleton, List.take_of_length_le (by simp), List.sum_singleton,
      List.length_append]
    omega

theorem exists_ones {frame : List Bytes} (begins : sect.Begins frame) :
    ∃ frame' : List Bytes, ∃ behind : Bytes, (∀ byte ∈ behind, byte = 255) ∧
      frame'.flatten = sect.bytes ++ behind ∧ frame'.map List.length = frame.map List.length := by
  obtain ⟨behind, begins⟩ := begins
  let ones : Bytes := List.replicate behind.length 255
  have total : (frame.map List.length).sum = (sect.bytes ++ ones).length := by
    rw [← List.length_flatten, ← begins, List.length_append, List.length_append,
      List.length_replicate]
  refine ⟨(frame.map List.length).splitLengths (sect.bytes ++ ones), ones,
    fun byte inside => List.eq_of_mem_replicate inside, ?_, ?_⟩
  · exact List.flatten_splitLengths _ _ total.ge
  · exact List.map_splitLengths_length _ _ total.le

end HeaderSection

/-- The payload behind the header section of a frame does not change the headers that are read. -/
def PayloadUnread (cursors : Cursors) (sect : HeaderSection) (writeTrans : List Nat)
    (persistentReadHeaders : StringToStringMap) : Prop :=
  ∀ frame frame', sect.Begins frame → sect.Begins frame' →
    (readHeaders cursors frame writeTrans persistentReadHeaders).toOption =
      (readHeaders cursors frame' writeTrans persistentReadHeaders).toOption

/-- A section with one info header, whose strings are not in the section. -/
def keyAndValueBehind : HeaderSection where
  front := [0x0f, 0xff, 0, 0, 0, 0, 0, 1]
  words := 1
  body := [0, 0, 1, 1]
  front_length := rfl
  body_length := rfl

theorem bodyRun_keyAndValueBehind (byte : UInt8) (same : Bool) :
    (bodyRun [] ∅ keyAndValueBehind.body [1, 107, 1, byte, 0] same).map
      (fun h => h.ensureReadHeaders.lookup [107]) = some (some [byte]) := by
  let start : Headers := ⟨0, [], [], none, ∅⟩
  let headers : StringToStringMap := Finmap.insert [107] [byte] ∅
  have away : atData 5 same 7 = false := rfl
  have away' : atData 5 same 1 = false := rfl
  have id : readVarint 32 [1, 1, 1, 107, 1, byte, 0] = .ok (1, [1, 1, 107, 1, byte, 0]) := rfl
  have known : ¬ (1 = 0 ∨ infoIdEnd ≤ 1) := by decide
  have info : readInfo 1 start [1, 1, 107, 1, byte, 0] =
      .ok ({ start with readHeaders := some headers }, [0]) := rfl
  have loop : readInfos (atData 5 same) [1, 1, 1, 107, 1, byte, 0] start =
      .ok { start with readHeaders := some headers } := by
    rw [readInfos_of_info (c := [1, 1, 1, 107, 1, byte, 0]) away id known info,
      readInfos_eq (c := [0]) away']
    rfl
  have protocol : readVarint 16 [0, 0, 1, 1, 1, 107, 1, byte, 0] =
      .ok (0, [0, 1, 1, 1, 107, 1, byte, 0]) := rfl
  have read : bodyRun [] ∅ keyAndValueBehind.body [1, 107, 1, byte, 0] same =
      some { start with readHeaders := some headers }.mergePersistent := by
    change (readBody (atData 5 same) [] ∅ [0, 0, 1, 1, 1, 107, 1, byte, 0]).toOption = _
    rw [readBody_of_known [] ∅ protocol (by decide)]
    change (readInfos (atData 5 same) [1, 1, 1, 107, 1, byte, 0] start >>= _ :
      Except String Headers).toOption = _
    rw [loop]
    rfl
  rw [read]
  exact congrArg some (Finmap.lookup_insert ∅)

end FbThrift.THeader
