import FbThrift.Protocol.Skip

/-!
# The pending boolean of the Compact reader

The header of a boolean field carries its value, which the reader keeps until `readBool` takes it.
Were it still there at any other read, a later boolean would get a value that is not its own.

`parseValue` and `skip` are run here with checks that the reader keeps no such value: before every
call of the reader but `readBool`, before every element of a container, and after every complete
value.  A check that fails reports a message of our choice, and the runs with and without checks are
the same for every message, so no check ever fails.
-/

namespace FbThrift

/-! ## Checked runs -/

namespace ReadM

variable {α : Type}

/-- The check that no boolean is pending. -/
def assertClear (leak : String) : ReadM Unit := fun r =>
  if r.boolValue.isNone then .ok ((), r) else .error leak

def checkedBefore (leak : String) (x : ReadM α) : ReadM α := do
  assertClear leak
  x

def checkedAfter (leak : String) (x : ReadM α) : ReadM α := do
  let a ← x
  assertClear leak
  pure a

end ReadM

open ReadM

/-- The calls of a reader, with a check before each but `readBool`. -/
def ReaderOps.checked (P : ReaderOps) (leak : String) : ReaderOps where
  readBool := P.readBool
  readByte := checkedBefore leak P.readByte
  readI16 := checkedBefore leak P.readI16
  readI32 := checkedBefore leak P.readI32
  readI64 := checkedBefore leak P.readI64
  readFloat := checkedBefore leak P.readFloat
  readDouble := checkedBefore leak P.readDouble
  readBinary := checkedBefore leak P.readBinary
  readStructBegin := checkedBefore leak P.readStructBegin
  readStructEnd := checkedBefore leak P.readStructEnd
  readFieldBegin := checkedBefore leak P.readFieldBegin
  readMapBegin := checkedBefore leak P.readMapBegin
  readMapEnd := checkedBefore leak P.readMapEnd
  readListBegin := checkedBefore leak P.readListBegin
  readListEnd := checkedBefore leak P.readListEnd
  readSetBegin := checkedBefore leak P.readSetBegin
  readSetEnd := checkedBefore leak P.readSetEnd

/-- One level of `parseValue`: `field` parses the members of a struct, `elem` the elements of a
container. -/
def parseBody (P : ReaderOps) (field elem : TType → ReadM Value) (type : TType) : ReadM Value :=
  match type.unifyStringType with
  | .bool => .bool <$> P.readBool
  | .byte => .byte <$> P.readByte
  | .i16 => .i16 <$> P.readI16
  | .i32 => .i32 <$> P.readI32
  | .i64 => .i64 <$> P.readI64
  | .double => .double <$> P.readDouble
  | .float => .float <$> P.readFloat
  | .string => .binary <$> P.readBinary
  | .struct => .object <$> parseObjectWith P field
  | .map => do
    let (keyType, valType, size) ← P.readMapBegin
    let entries ← parseElements 2 size do
      let key ← elem keyType
      let val ← elem valType
      pure (key, val)
    P.readMapEnd
    pure (.map (SortedMap.ofList entries))
  | .set => do
    let (elemType, size) ← P.readSetBegin
    let elems ← parseElements 1 size (elem elemType)
    P.readSetEnd
    pure (.set (SortedSet.ofList elems))
  | .list => do
    let (elemType, size) ← P.readListBegin
    let elems ← parseElements 1 size (elem elemType)
    P.readListEnd
    pure (.list elems)
  | _ => throw (invalidSkipType type)

/-- `parseValueAt` with the checks. -/
def checkedParseAt (leak : String) : Nat → TType → ReadM Value
  | 0, _ => throw exceededDepthLimit
  | height + 1, type => checkedAfter leak
      (parseBody (Protocol.compact.reader.checked leak) (checkedParseAt leak height)
        (fun elemType => checkedBefore leak (checkedParseAt leak height elemType)) type)

/-- `parseValue` with the checks. -/
def checkedParse (leak : String) (type : TType) : ReadM Value := fun r =>
  checkedParseAt leak r.height type r

/-- One level of `skip`: `field` skips the members of a struct, `tuples` the elements of a
container. -/
def skipLevel (P : ReaderOps) (field : TType → ReadM Unit)
    (tuples : Nat → List TType → ReadM Unit) (type : TType) : ReadM Unit :=
  match type with
  | .bool => discard P.readBool
  | .byte => discard P.readByte
  | .i16 => discard P.readI16
  | .i32 => discard P.readI32
  | .u64 => discard P.readI64
  | .i64 => discard P.readI64
  | .double => discard P.readDouble
  | .float => discard P.readFloat
  | .utf8 => discard P.readBinary
  | .utf16 => discard P.readBinary
  | .string => discard P.readBinary
  | .struct => skipFields P field
  | .map => do
    let (keyType, valType, size) ← P.readMapBegin
    tuples size [keyType, valType]
    P.readMapEnd
  | .set => do
    let (elemType, size) ← P.readSetBegin
    tuples size [elemType]
    P.readSetEnd
  | .list => do
    let (elemType, size) ← P.readListBegin
    tuples size [elemType]
    P.readListEnd
  | type => throw (invalidSkipType type)

theorem skipBody_eq (p : Protocol) (field : TType → ReadM Unit)
    (elem : Option (TType → ReadM Unit)) (type : TType) :
    skipBody p field elem type =
      skipLevel p.reader field (skipContainer.skipTuples p elem) type := by
  cases type <;> rfl

/-- The elements of a container, with a check before them and before each. -/
def checkedTuples (leak : String) (elem : Option (TType → ReadM Unit)) (n : Nat)
    (types : List TType) : ReadM Unit :=
  checkedBefore leak (skipContainer.skipTuples .compact
    (elem.map fun skip type => checkedBefore leak (skip type)) n types)

/-- `skip` with the checks. -/
def checkedSkip (leak : String) : Nat → TType → ReadM Unit
  | 0, _ => throw exceededDepthLimit
  | 1, type => checkedAfter leak
      (skipLevel (Protocol.compact.reader.checked leak) (fun _ => throw exceededDepthLimit)
        (checkedTuples leak none) type)
  | left + 2, type => checkedAfter leak
      (skipLevel (Protocol.compact.reader.checked leak) (checkedSkip leak (left + 1))
        (checkedTuples leak (some (checkedSkip leak left))) type)

/-! ## Reads that leave the pending boolean alone -/

/-- A read that neither takes nor sets the pending boolean. -/
def Inert {α : Type} (x : ReadM α) : Prop :=
  ∀ r a r', x r = .ok (a, r') → r'.boolValue = r.boolValue

namespace Inert

variable {α β : Type} {x : ReadM α} {f : α → ReadM β}

theorem pure (a : α) : Inert (pure a : ReadM α) := by
  intro r b r' ok
  cases ok
  rfl

theorem throw (err : String) : Inert (throw err : ReadM α) := nofun

theorem bind (first : Inert x) (second : ∀ a, Inert (f a)) : Inert (x >>= f) := by
  intro r b r' ok
  obtain ⟨a, mid, ran, ran'⟩ := Run.bind_ok ok
  exact (second a mid b r' ran').trans (first r a mid ran)

theorem ite {c : Prop} [Decidable c] {y : ReadM α} (yes : Inert x) (no : Inert y) :
    Inert (if c then x else y) := by
  split
  · exact yes
  · exact no

theorem decode (x : Decoder α) : Inert (ReadM.decode x) := by
  intro r a r' ok
  unfold ReadM.decode at ok
  split at ok
  · cases ok
    rfl
  · cases ok

theorem modify {g : Reader → Reader} (same : ∀ r, (g r).boolValue = r.boolValue) :
    Inert (modify g : ReadM PUnit) := by
  intro r a r' ok
  cases ok
  exact same r

theorem get : Inert (get : ReadM Reader) := by
  intro r a r' ok
  cases ok
  rfl

theorem descend : Inert ReadM.descend := by
  intro r a r' ok
  unfold ReadM.descend at ok
  split at ok
  · cases ok
  · cases ok
    rfl

theorem ascend : Inert ReadM.ascend := by
  intro r a r' ok
  cases ok
  rfl

theorem checkContainerSize (size : Int32) : Inert (ReadM.checkContainerSize size) :=
  .ite (.throw _) (.pure _)

end Inert

namespace CompactProtocolReader

theorem keeps_readVarint32 : Inert readVarint32 := (Inert.decode _).bind fun _ => .pure _

theorem keeps_readByte : Inert readByte := (Inert.decode _).bind fun _ => .pure _

theorem keeps_readI16 : Inert readI16 := keeps_readVarint32.bind fun _ => .pure _

theorem keeps_readI32 : Inert readI32 := keeps_readVarint32.bind fun _ => .pure _

theorem keeps_readI64 : Inert readI64 := (Inert.decode _).bind fun _ => .pure _

theorem keeps_readFloat : Inert readFloat := (Inert.decode _).bind fun _ => .pure _

theorem keeps_readDouble : Inert readDouble := (Inert.decode _).bind fun _ => .pure _

theorem keeps_readBinary : Inert readBinary :=
  keeps_readVarint32.bind fun _ => .ite (.throw _) (.decode _)

theorem keeps_readStructBegin : Inert readStructBegin := by
  refine Inert.descend.bind fun _ => .modify ?_
  exact fun r => rfl

theorem keeps_readStructEnd : Inert readStructEnd := by
  refine Inert.bind (.modify ?_) fun _ => .ascend
  exact fun r => rfl

theorem keeps_getType (type : Nat) : Inert (getType type) := by
  unfold getType
  split
  · exact .pure _
  · exact .throw _

theorem keeps_readFieldId (modifier : Nat) : Inert (readFieldId modifier) :=
  .ite keeps_readI16 (Inert.get.bind fun _ => .pure _)

theorem keeps_readMapBegin : Inert readMapBegin :=
  Inert.descend.bind fun _ => keeps_readVarint32.bind fun _ =>
    (Inert.ite (.decode _) (.pure _)).bind fun _ => (Inert.checkContainerSize _).bind fun _ =>
      (keeps_getType _).bind fun _ => (keeps_getType _).bind fun _ => .pure _

theorem keeps_readListBegin : Inert readListBegin :=
  Inert.descend.bind fun _ => (Inert.decode _).bind fun _ =>
    (Inert.ite keeps_readVarint32 (.pure _)).bind fun _ => (Inert.checkContainerSize _).bind
      fun _ => (keeps_getType _).bind fun _ => .pure _

end CompactProtocolReader

/-! ## Checks that never fail -/

/-- From readers whose pending boolean is as told, the checked run is the plain one, and it leaves
no boolean pending. -/
def Checks {α : Type} (start : Option Bool → Prop) (plain checked : ReadM α) : Prop :=
  ∀ r, start r.boolValue → checked r = plain r ∧ ∀ a r', plain r = .ok (a, r') → r'.boolValue = none

/-- No boolean is pending. -/
def Clear (flag : Option Bool) : Prop := flag = none

/-- A boolean is pending at most where a boolean is to be read. -/
def Awaited (type : TType) (flag : Option Bool) : Prop := flag = none ∨ type = .bool

theorem assertClear_of_clear (leak : String) {r : Reader} (clear : Clear r.boolValue) :
    assertClear leak r = .ok ((), r) :=
  if_pos (Option.isNone_iff_eq_none.mpr clear)

namespace Checks

variable {α β : Type} {start : Option Bool → Prop} {x x' : ReadM α} {f f' : α → ReadM β}
  {leak : String}

theorem pure (a : α) : Checks Clear (pure a : ReadM α) (pure a) := by
  intro r clear
  refine ⟨rfl, fun a' r' ok => ?_⟩
  cases ok
  exact clear

theorem throw (err : String) : Checks start (throw err : ReadM α) (throw err) :=
  fun _ _ => ⟨rfl, nofun⟩

theorem bind (first : Checks start x x') (second : ∀ a, Checks Clear (f a) (f' a)) :
    Checks start (x >>= f) (x' >>= f') := by
  intro r flag
  obtain ⟨same, clear⟩ := first r flag
  cases ran : x r with
  | error err =>
    refine ⟨?_, fun b r' ok => ?_⟩
    · rw [Run.bind_of_error ran, Run.bind_of_error (same.trans ran)]
    · rw [Run.bind_of_error ran] at ok
      cases ok
  | ok p =>
    obtain ⟨same', clear'⟩ := second p.1 p.2 (clear p.1 p.2 ran)
    refine ⟨?_, fun b r' ok => clear' b r' ?_⟩
    · rw [Run.bind_of_ok ran, Run.bind_of_ok (same.trans ran), same']
    · rwa [Run.bind_of_ok ran] at ok

theorem map (first : Checks start x x') (g : α → β) : Checks start (g <$> x) (g <$> x') := by
  rw [map_eq_pure_bind, map_eq_pure_bind]
  exact first.bind fun a => .pure (g a)

theorem imp {start' : Option Bool → Prop} (agrees : Checks start x x')
    (weaker : ∀ flag, start' flag → start flag) : Checks start' x x' :=
  fun r flag => agrees r (weaker _ flag)

theorem keeps (keeps : Inert x) : Checks Clear x x :=
  fun r clear => ⟨rfl, fun a r' ok => (keeps r a r' ok).trans clear⟩

theorem before (agrees : Checks Clear x x') : Checks Clear x (checkedBefore leak x') := by
  intro r clear
  obtain ⟨same, after⟩ := agrees r clear
  have checked := assertClear_of_clear leak clear
  exact ⟨(Run.bind_of_ok checked).trans same, after⟩

theorem after (agrees : Checks start x x') : Checks start x (checkedAfter leak x') := by
  have checked (a : α) : Checks Clear (Pure.pure a) (assertClear leak >>= fun _ => Pure.pure a) :=
    (pure a).before
  have whole := agrees.bind checked
  rwa [bind_pure] at whole

theorem call (keeps : Inert x) : Checks Clear x (checkedBefore leak x) :=
  (Checks.keeps keeps).before

theorem times (elem : Checks Clear x x') (n : Nat) :
    Checks Clear (ReadM.times x n) (ReadM.times x' n) := by
  induction n with
  | zero => exact .pure []
  | succ n ih => exact elem.bind fun a => ih.bind fun as => .pure (a :: as)

theorem parseElements (types n : Nat) (elem : Checks Clear x x') :
    Checks Clear (parseElements types n x) (parseElements types n x') := by
  have enough : Inert (ReadM.canReadNElements n types) := by
    intro r a r' ok
    cases ok
    rfl
  refine (Checks.keeps enough).bind fun enough => ?_
  split
  · exact elem.times n
  · exact .throw _

end Checks

theorem getType_boolean {code : Nat} {type : TType} {r r' : Reader} (boolean : code = 1 ∨ code = 2)
    (ok : CompactProtocolReader.getType code r = .ok (type, r')) : type = .bool := by
  rcases boolean with rfl | rfl
  · cases ok
    rfl
  · cases ok
    rfl

/-- A field header sets the pending boolean only for a boolean field. -/
theorem readFieldBegin_awaited {r r' : Reader} {field : TType × Int16} (clear : Clear r.boolValue)
    (ok : CompactProtocolReader.readFieldBegin r = .ok (field, r')) :
    Awaited field.1 r'.boolValue := by
  unfold CompactProtocolReader.readFieldBegin at ok
  obtain ⟨byte, r₁, ran₁, rest⟩ := Run.bind_ok ok
  have clear₁ : r₁.boolValue = none := (Inert.decode _ _ _ _ ran₁).trans clear
  split at rest
  · cases rest
    exact .inl clear₁
  · obtain ⟨fieldId, r₂, ran₂, rest⟩ := Run.bind_ok rest
    obtain ⟨fieldType, r₃, ran₃, rest⟩ := Run.bind_ok rest
    obtain ⟨u, r₄, ran₄, rest⟩ := Run.bind_ok rest
    cases rest
    have clear₂ := (CompactProtocolReader.keeps_readFieldId _ _ _ _ ran₂).trans clear₁
    have clear₃ := (CompactProtocolReader.keeps_getType _ _ _ _ ran₃).trans clear₂
    unfold CompactProtocolReader.saveBool at ran₄
    split at ran₄
    · rename_i boolean
      exact .inr (getType_boolean boolean ran₃)
    · cases ran₄
      exact .inl clear₃

theorem readBool_clears {r r' : Reader} {b : Bool}
    (ok : CompactProtocolReader.readBool r = .ok (b, r')) : r'.boolValue = none := by
  unfold CompactProtocolReader.readBool at ok
  rw [Run.get_bind] at ok
  cases pending : r.boolValue with
  | some value =>
    rw [pending] at ok
    cases ok
    rfl
  | none =>
    rw [pending] at ok
    have kept : Inert (ReadM.decode Decoder.readByte >>= fun byte =>
        (pure (byte.toNat = 1) : ReadM Bool)) := (Inert.decode _).bind fun _ => .pure _
    exact (kept _ _ _ ok).trans pending

namespace Checks

variable {α : Type} {leak : String}

theorem readBool :
    Checks (Awaited .bool) CompactProtocolReader.readBool CompactProtocolReader.readBool :=
  fun _ _ => ⟨rfl, fun _ _ ok => readBool_clears ok⟩

variable {value value' : TType → ReadM α}

theorem fields (values : ∀ type, Checks (Awaited type) (value type) (value' type)) (left : Nat) :
    Checks Clear (ReadM.fields Protocol.compact.reader value left)
      (ReadM.fields (Protocol.compact.reader.checked leak) value' left) := by
  induction left with
  | zero => exact .throw _
  | succ left ih =>
    intro r clear
    have rest (field : TType × Int16) : Checks (Awaited field.1)
          (if field.1 = .stop then Pure.pure [] else do
            let v ← value field.1
            let rest ← ReadM.fields Protocol.compact.reader value left
            Pure.pure ((field.2, v) :: rest))
          (if field.1 = .stop then Pure.pure [] else do
            let v ← value' field.1
            let rest ← ReadM.fields (Protocol.compact.reader.checked leak) value' left
            Pure.pure ((field.2, v) :: rest)) := by
      split
      · rename_i stop
        refine (pure []).imp fun flag awaited => awaited.resolve_right ?_
        rw [stop]
        exact TType.noConfusion
      · exact (values field.1).bind fun v => ih.bind fun rest => .pure _
    have checked : (Protocol.compact.reader.checked leak).readFieldBegin r =
        CompactProtocolReader.readFieldBegin r :=
      Run.bind_of_ok (assertClear_of_clear leak clear)
    rw [ReadM.fields, ReadM.fields]
    cases ran : CompactProtocolReader.readFieldBegin r with
    | error err =>
      have plain : Protocol.compact.reader.readFieldBegin r = .error err := ran
      rw [Run.bind_of_error plain, Run.bind_of_error (checked.trans ran)]
      exact ⟨rfl, nofun⟩
    | ok p =>
      have plain : Protocol.compact.reader.readFieldBegin r = .ok (p.1, p.2) := ran
      rw [Run.bind_of_ok plain, Run.bind_of_ok (checked.trans ran)]
      exact rest p.1 p.2 (readFieldBegin_awaited clear ran)

/-! ## Parsing -/

theorem awaited_of_ne {type : TType} (other : type ≠ .bool) (flag : Option Bool)
    (awaited : Awaited type flag) : Clear flag :=
  awaited.resolve_right other

theorem parseObjectWith {field field' : TType → ReadM Value}
    (fields : ∀ type, Checks (Awaited type) (field type) (field' type)) :
    Checks Clear (parseObjectWith Protocol.compact.reader field)
      (parseObjectWith (Protocol.compact.reader.checked leak) field') :=
  (call CompactProtocolReader.keeps_readStructBegin).bind fun _ => (keeps .get).bind fun _ =>
    (Checks.fields fields _).bind fun _ =>
      (call CompactProtocolReader.keeps_readStructEnd).bind fun _ => .pure _

theorem parseBody {field field' elem elem' : TType → ReadM Value}
    (fields : ∀ type, Checks (Awaited type) (field type) (field' type))
    (elems : ∀ type, Checks Clear (elem type) (elem' type)) (type : TType) :
    Checks (Awaited type) (parseBody Protocol.compact.reader field elem type)
      (parseBody (Protocol.compact.reader.checked leak) field' elem' type) := by
  cases type with
  | bool => exact readBool.map _
  | byte => exact ((call CompactProtocolReader.keeps_readByte).map _).imp (awaited_of_ne nofun)
  | i16 => exact ((call CompactProtocolReader.keeps_readI16).map _).imp (awaited_of_ne nofun)
  | i32 => exact ((call CompactProtocolReader.keeps_readI32).map _).imp (awaited_of_ne nofun)
  | i64 => exact ((call CompactProtocolReader.keeps_readI64).map _).imp (awaited_of_ne nofun)
  | double =>
    exact ((call CompactProtocolReader.keeps_readDouble).map _).imp (awaited_of_ne nofun)
  | float => exact ((call CompactProtocolReader.keeps_readFloat).map _).imp (awaited_of_ne nofun)
  | string =>
    exact ((call CompactProtocolReader.keeps_readBinary).map _).imp (awaited_of_ne nofun)
  | utf8 => exact ((call CompactProtocolReader.keeps_readBinary).map _).imp (awaited_of_ne nofun)
  | utf16 => exact ((call CompactProtocolReader.keeps_readBinary).map _).imp (awaited_of_ne nofun)
  | struct => exact ((parseObjectWith fields).map _).imp (awaited_of_ne nofun)
  | map =>
    refine imp ?_ (awaited_of_ne nofun)
    refine (call CompactProtocolReader.keeps_readMapBegin).bind fun types => ?_
    refine bind ?_ fun entries => (call .ascend).bind fun _ => .pure _
    exact Checks.parseElements 2 _
      ((elems types.1).bind fun key => (elems types.2.1).bind fun val => .pure (key, val))
  | set =>
    refine imp ?_ (awaited_of_ne nofun)
    refine (call CompactProtocolReader.keeps_readListBegin).bind fun types => ?_
    exact (Checks.parseElements 1 _ (elems types.1)).bind fun _ =>
      (call .ascend).bind fun _ => .pure _
  | list =>
    refine imp ?_ (awaited_of_ne nofun)
    refine (call CompactProtocolReader.keeps_readListBegin).bind fun types => ?_
    exact (Checks.parseElements 1 _ (elems types.1)).bind fun _ =>
      (call .ascend).bind fun _ => .pure _
  | _ => exact .throw _

theorem parseAt (leak : String) (height : Nat) (type : TType) :
    Checks (Awaited type) (parseValueAt Protocol.compact.reader height type)
      (checkedParseAt leak height type) := by
  induction height generalizing type with
  | zero => exact .throw _
  | succ height ih =>
    have clear (type : TType) : Checks Clear (parseValueAt Protocol.compact.reader height type)
        (checkedBefore leak (checkedParseAt leak height type)) :=
      ((ih type).imp fun _ => .inl).before
    exact (parseBody ih clear type).after

/-! ## Skipping -/

theorem discard (first : Checks start x x') : Checks start (discard x) (discard x') :=
  first.map _

theorem skipFields {field field' : TType → ReadM Unit}
    (fields : ∀ type, Checks (Awaited type) (field type) (field' type)) :
    Checks Clear (skipFields Protocol.compact.reader field)
      (skipFields (Protocol.compact.reader.checked leak) field') :=
  (call CompactProtocolReader.keeps_readStructBegin).bind fun _ => (keeps .get).bind fun _ =>
    (Checks.fields fields _).bind fun _ => call CompactProtocolReader.keeps_readStructEnd

theorem skipLevel {field field' : TType → ReadM Unit}
    {tuples tuples' : Nat → List TType → ReadM Unit}
    (fields : ∀ type, Checks (Awaited type) (field type) (field' type))
    (each : ∀ n types, Checks Clear (tuples n types) (tuples' n types)) (type : TType) :
    Checks (Awaited type) (skipLevel Protocol.compact.reader field tuples type)
      (skipLevel (Protocol.compact.reader.checked leak) field' tuples' type) := by
  cases type with
  | bool => exact discard readBool
  | byte => exact (discard (call CompactProtocolReader.keeps_readByte)).imp (awaited_of_ne nofun)
  | i16 => exact (discard (call CompactProtocolReader.keeps_readI16)).imp (awaited_of_ne nofun)
  | i32 => exact (discard (call CompactProtocolReader.keeps_readI32)).imp (awaited_of_ne nofun)
  | u64 => exact (discard (call CompactProtocolReader.keeps_readI64)).imp (awaited_of_ne nofun)
  | i64 => exact (discard (call CompactProtocolReader.keeps_readI64)).imp (awaited_of_ne nofun)
  | double =>
    exact (discard (call CompactProtocolReader.keeps_readDouble)).imp (awaited_of_ne nofun)
  | float => exact (discard (call CompactProtocolReader.keeps_readFloat)).imp (awaited_of_ne nofun)
  | utf8 => exact (discard (call CompactProtocolReader.keeps_readBinary)).imp (awaited_of_ne nofun)
  | utf16 =>
    exact (discard (call CompactProtocolReader.keeps_readBinary)).imp (awaited_of_ne nofun)
  | string =>
    exact (discard (call CompactProtocolReader.keeps_readBinary)).imp (awaited_of_ne nofun)
  | struct => exact (skipFields fields).imp (awaited_of_ne nofun)
  | map =>
    refine imp ?_ (awaited_of_ne nofun)
    exact (call CompactProtocolReader.keeps_readMapBegin).bind fun types =>
      (each types.2.2 [types.1, types.2.1]).bind fun _ => call .ascend
  | set =>
    refine imp ?_ (awaited_of_ne nofun)
    exact (call CompactProtocolReader.keeps_readListBegin).bind fun types =>
      (each types.2 [types.1]).bind fun _ => call .ascend
  | list =>
    refine imp ?_ (awaited_of_ne nofun)
    exact (call CompactProtocolReader.keeps_readListBegin).bind fun types =>
      (each types.2 [types.1]).bind fun _ => call .ascend
  | _ => exact .throw _

theorem skipEach {skip skip' : TType → ReadM Unit}
    (elems : ∀ type, Checks Clear (skip type) (skip' type)) (types : List TType) :
    Checks Clear (skipEach skip types) (skipEach skip' types) := by
  induction types with
  | nil => exact .pure ()
  | cons type types ih => exact (elems type).bind fun _ => ih

theorem skipN {skip skip' : TType → ReadM Unit}
    (elems : ∀ type, Checks Clear (skip type) (skip' type)) (n : Nat) (types : List TType) :
    Checks Clear (skipN .compact skip n types) (skipN .compact skip' n types) := by
  unfold FbThrift.skipN
  split
  · exact keeps ((Inert.decode _).bind fun _ => .pure _)
  · exact ((skipEach elems types).times n).bind fun _ => .pure ()

/-- With no depth left for elements. -/
theorem noTuples (leak : String) (n : Nat) (types : List TType) :
    Checks Clear (skipContainer.skipTuples .compact none n types)
      (checkedTuples leak none n types) :=
  before (.throw _)

theorem tuples {skip skip' : TType → ReadM Unit}
    (elems : ∀ type, Checks (Awaited type) (skip type) (skip' type)) (leak : String) (n : Nat)
    (types : List TType) :
    Checks Clear (skipContainer.skipTuples .compact (some skip) n types)
      (checkedTuples leak (some skip') n types) :=
  before (skipN (fun type => ((elems type).imp fun _ => .inl).before) n types)

theorem skip (leak : String) (left : Nat) (type : TType) :
    Checks (Awaited type) (Protocol.compact.skipAt left type) (checkedSkip leak left type) := by
  induction left using Nat.strong_induction_on generalizing type with
  | _ left ih =>
    match left with
    | 0 => exact .throw _
    | 1 =>
      have plain : Protocol.compact.skipAt 1 type = _ := skipBody_eq .compact _ none type
      rw [plain]
      exact (skipLevel (fun _ => .throw _) (noTuples leak) type).after
    | left + 2 =>
      have plain : Protocol.compact.skipAt (left + 2) type = _ :=
        skipBody_eq .compact _ (some (Protocol.compact.skipAt left)) type
      have elems := tuples (ih left (by omega)) leak
      rw [plain]
      exact (skipLevel (ih (left + 1) (by omega)) elems type).after

end Checks

/-! ## Sequences of calls -/

/-- A value that is parsed, or skipped with so many levels below the limit. -/
inductive ValueCall where
  | parseValue (type : TType)
  | skip (left : Nat) (type : TType)

def ValueCall.run : ValueCall → ReadM Unit
  | .parseValue type => discard (FbThrift.parseValue Protocol.compact.reader type)
  | .skip left type => Protocol.compact.skip left type

/-- The call with the checks. -/
def ValueCall.checked (leak : String) : ValueCall → ReadM Unit
  | .parseValue type => discard (checkedParse leak type)
  | .skip left type => checkedSkip leak left type

/-- One call after the other. -/
def runCalls (run : ValueCall → ReadM Unit) : List ValueCall → ReadM Unit
  | [] => pure ()
  | call :: calls => do
    run call
    runCalls run calls

theorem Checks.call_run (leak : String) (call : ValueCall) :
    Checks Clear call.run (call.checked leak) := by
  cases call with
  | parseValue type =>
    refine Checks.discard fun r clear => ?_
    exact Checks.parseAt leak r.height type r (.inl clear)
  | skip left type =>
    have same : Protocol.compact.skip left type = Protocol.compact.skipAt left type := by
      cases left with
      | zero => rfl
      | succ left => cases left <;> rfl
    have skipped := Checks.skip leak left type
    rw [← same] at skipped
    exact skipped.imp fun _ => Or.inl

/-- No boolean is pending at any read that a boolean must not be pending at, nor after a value. -/
theorem pending_never_leaks (leak : String) (maxDepth : Nat) (buf : Bytes)
    (calls : List ValueCall) :
    runCalls (ValueCall.checked leak) calls (Reader.ofBytes maxDepth buf) =
        runCalls ValueCall.run calls (Reader.ofBytes maxDepth buf) ∧
      ∀ r, runCalls ValueCall.run calls (Reader.ofBytes maxDepth buf) = .ok ((), r) →
        r.boolValue = none := by
  have agrees : Checks Clear (runCalls ValueCall.run calls)
      (runCalls (ValueCall.checked leak) calls) := by
    induction calls with
    | nil => exact .pure ()
    | cons call calls ih => exact (Checks.call_run leak call).bind fun _ => ih
  obtain ⟨same, clear⟩ := agrees (Reader.ofBytes maxDepth buf) rfl
  exact ⟨same, fun r ok => clear () r ok⟩

end FbThrift
