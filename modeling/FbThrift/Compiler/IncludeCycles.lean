import FbThrift.Compiler.ParseAst
import Mathlib.Data.List.Dedup
import Mathlib.Data.List.Perm.Subperm
import Mathlib.Logic.Relation

/-!
# Which include cycles are reported

A file that is in progress is in the bundle already, so a statement that names it gives its
program.  A circular dependency is reported for one statement only: the one whose path is found to
be the path that the root was given by.
-/

namespace FbThrift

namespace ParseAst

variable {b : Backend} {params : Params} {root : Program}
  {parse : Program → State → Option (State × Bool)} {s s' : State} {parent program : Program}
  {includes : List (Option String × String)} {i : Include} {is : List Include} {k x : String}

/-! ## The cases of a statement -/

theorem findIncludeFile_some (h : (findIncludeFile b params s parent x).1 = some k) :
    (findIncludeFile b params s parent x).2.foundIncludes x = some k := by
  cases known : s.foundIncludes x with
  | some path => simpa [findIncludeFile, known] using h
  | none =>
    cases found : search b params s parent x with
    | none => simp [findIncludeFile, known, found] at h
    | some path => simpa [findIncludeFile, known, found] using h

theorem enter_cases {r : State × Option Program} (h : enter params parse s x k = some r) :
    (k ∈ s.circularDeps ∧ r = (s.report (.circularDependency x), none)) ∨
      (k ∉ s.circularDeps ∧ ∃ s' ended, parse ⟨x, k⟩ { s with
          circularDeps := k :: s.circularDeps
          added := ⟨x, k⟩ :: s.added } = some (s', ended) ∧
        ((ended = true ∧ params.allowMissingIncludes = false ∧ r = (s', none)) ∨
          ((ended = false ∨ params.allowMissingIncludes = true) ∧
            r = ({ s' with circularDeps := s'.circularDeps.erase k }, some ⟨x, k⟩)))) := by
  rw [enter] at h
  by_cases progress : k ∈ s.circularDeps
  · rw [if_pos progress] at h
    exact .inl ⟨progress, (Option.some.inj h).symm⟩
  · rw [if_neg progress] at h
    refine .inr ⟨progress, ?_⟩
    dsimp only at h
    split at h
    · exact absurd h (by simp)
    · next s' ended ran =>
        refine ⟨s', ended, ran, ?_⟩
        cases ended with
        | false => exact .inr ⟨.inl rfl, by simpa using h.symm⟩
        | true =>
          cases allow : params.allowMissingIncludes with
          | false => exact .inl ⟨rfl, rfl, by simpa [allow] using h.symm⟩
          | true => exact .inr ⟨.inr rfl, by simpa [allow] using h.symm⟩

theorem findProgramByFullPath_cases (root : Program) (s : State) (k : String) :
    (∃ q ∈ s.added, q.fullPath = k ∧ findProgramByFullPath root s k = .included q) ∨
      ((∀ q ∈ s.added, q.fullPath ≠ k) ∧
        (findProgramByFullPath root s k = .root ∨ findProgramByFullPath root s k = .nothing)) := by
  rw [findProgramByFullPath]
  cases found : s.added.find? (·.fullPath = k) with
  | some q =>
    have same : q.fullPath = k := by simpa using List.find?_some found
    exact .inl ⟨q, List.mem_of_find?_eq_some found, same, rfl⟩
  | none =>
    refine .inr ⟨fun q member => by simpa using List.find?_eq_none.1 found q member, ?_⟩
    by_cases isRoot : k = root.fullPath
    · exact .inl (if_pos isRoot)
    · exact .inr (if_neg isRoot)

theorem onInclude_cases {r : State × Option Program}
    (h : onInclude b params root parse parent includes i s = some r) :
    (∃ s₁, findIncludeFile b params s parent i.path = (none, s₁) ∧
      ((params.allowMissingIncludes = false ∧ r = (s₁.report (.missingInclude i.path), none)) ∨
        enter params parse (checkAlias (s₁.report (.missingInclude i.path)) includes
          i.includeAlias i.path) i.path i.path = some r)) ∨
    ∃ k s₁, findIncludeFile b params s parent i.path = (some k, s₁) ∧
      ((∃ q ∈ s₁.added, q.fullPath = k ∧ r = (checkAlias s₁ includes i.includeAlias k, some q)) ∨
        ((∀ q ∈ s₁.added, q.fullPath ≠ k) ∧
          ∃ x, enter params parse (checkAlias s₁ includes i.includeAlias k) x k = some r)) := by
  rw [onInclude] at h
  rcases found : findIncludeFile b params s parent i.path with ⟨_ | k, s₁⟩
  · refine .inl ⟨s₁, rfl, ?_⟩
    rw [found] at h
    dsimp only at h
    cases allow : params.allowMissingIncludes with
    | false =>
      rw [allow, if_neg (by decide)] at h
      exact .inl ⟨rfl, (Option.some.inj h).symm⟩
    | true =>
      rw [allow, if_pos rfl] at h
      exact .inr h
  · refine .inr ⟨k, s₁, rfl, ?_⟩
    rw [found] at h
    dsimp only at h
    have same : (checkAlias s₁ includes i.includeAlias k).added = s₁.added := by
      cases aliased : i.includeAlias <;> rfl
    rcases findProgramByFullPath_cases root (checkAlias s₁ includes i.includeAlias k) k with
      ⟨q, member, full, known⟩ | ⟨unknown, isRoot | nothing⟩
    · rw [known] at h
      exact .inl ⟨q, same ▸ member, full, (Option.some.inj h).symm⟩
    · rw [isRoot] at h
      exact .inr ⟨same ▸ unknown, _, h⟩
    · rw [nothing] at h
      exact .inr ⟨same ▸ unknown, _, h⟩

/-! ## What is kept -/

/-- What was found, read, added, parsed or reported stays, and a path of which the file is read is
found as it is spelled. -/
structure Grows (s s' : State) : Prop where
  found : ∀ {x k}, s.foundIncludes x = some k → s'.foundIncludes x = some k
  source : ∀ {x}, (s.fileSourceMap x).isSome → (s'.fileSourceMap x).isSome
  spelled : ∀ {x k}, s.foundIncludes x = none → (s.fileSourceMap x).isSome →
    s'.foundIncludes x = some k → k = x
  added : s.added ⊆ s'.added
  parsed : s.parsed ⊆ s'.parsed
  diagnostics : s.diagnostics ⊆ s'.diagnostics

namespace Grows

theorem refl (s : State) : Grows s s :=
  ⟨id, id, fun unknown _ known => by simp [unknown] at known, fun _ => id, fun _ => id,
    fun _ => id⟩

theorem trans {s₁ s₂ s₃ : State} (first : Grows s₁ s₂) (second : Grows s₂ s₃) : Grows s₁ s₃ where
  found known := second.found (first.found known)
  source known := second.source (first.source known)
  spelled := by
    intro x k unknown read known
    cases middle : s₂.foundIncludes x with
    | none => exact second.spelled middle (first.source read) known
    | some k' =>
      have same : k = k' := Option.some.inj (known.symm.trans (second.found middle))
      exact same.trans (first.spelled unknown read middle)
  added _ member := second.added (first.added member)
  parsed _ member := second.parsed (first.parsed member)
  diagnostics _ member := second.diagnostics (first.diagnostics member)

theorem of_same {s s' : State} (found : s'.foundIncludes = s.foundIncludes)
    (source : s'.fileSourceMap = s.fileSourceMap) (added : s.added ⊆ s'.added)
    (parsed : s.parsed ⊆ s'.parsed) (diagnostics : s.diagnostics ⊆ s'.diagnostics) :
    Grows s s' where
  found known := found ▸ known
  source known := source ▸ known
  spelled unknown _ known := by simp [found, unknown] at known
  added := added
  parsed := parsed
  diagnostics := diagnostics

theorem report (s : State) (d : Diagnostic) : Grows s (s.report d) :=
  of_same rfl rfl (fun _ => id) (fun _ => id) fun _ => List.mem_append_left _

theorem checkAlias (s : State) (includes : List (Option String × String))
    (includeAlias : Option String) (k : String) :
    Grows s (ParseAst.checkAlias s includes includeAlias k) := by
  cases includeAlias with
  | none => exact refl s
  | some name => exact of_same rfl rfl (fun _ => id) (fun _ => id) fun _ => List.mem_append_left _

theorem findIncludeFile (s : State) (parent : Program) (x : String) :
    Grows s (ParseAst.findIncludeFile b params s parent x).2 := by
  rw [ParseAst.findIncludeFile]
  cases known : s.foundIncludes x with
  | some path => exact refl s
  | none =>
    cases found : search b params s parent x with
    | none => exact refl s
    | some path =>
      refine ⟨?_, id, ?_, fun _ => id, fun _ => id, fun _ => id⟩
      · intro y k other
        have different : y ≠ x := by
          rintro rfl
          simp [known] at other
        simpa [different] using other
      · intro y k unknown read now
        by_cases same : y = x
        · subst same
          rw [search, if_pos read] at found
          simp only [Function.update_self] at now
          exact (Option.some.inj (found.trans now)).symm
        · simp [same, unknown] at now

theorem getFile (s : State) (x : String) : Grows s (ParseAst.getFile b s x).2 := by
  rw [ParseAst.getFile]
  split
  · exact refl s
  · dsimp only
    split
    · exact refl s
    · split
      · exact refl s
      · refine ⟨id, ?_, fun unknown _ known => by simp [unknown] at known, fun _ => id,
          fun _ => id, fun _ => id⟩
        intro y read
        by_cases same : y = x
        · simp [same]
        · simpa [same] using read

section

variable (all : ∀ p s r, parse p s = some r → Grows s r.1)

include all

theorem enter {r : State × Option Program} (h : ParseAst.enter params parse s x k = some r) :
    Grows s r.1 := by
  rcases enter_cases h with ⟨-, rfl⟩ | ⟨-, s', ended, ran, ⟨-, -, rfl⟩ | ⟨-, rfl⟩⟩
  · exact report s _
  all_goals
    have registered : Grows s { s with
        circularDeps := k :: s.circularDeps
        added := ⟨x, k⟩ :: s.added } :=
      of_same rfl rfl (List.subset_cons_self _ _) (fun _ => id) fun _ => id
    have nested : Grows s s' := registered.trans (all _ _ _ ran)
  · exact nested
  · exact nested.trans (of_same rfl rfl (fun _ => id) (fun _ => id) fun _ => id)

theorem onInclude {r : State × Option Program}
    (h : ParseAst.onInclude b params root parse parent includes i s = some r) : Grows s r.1 := by
  have looked : Grows s (ParseAst.findIncludeFile b params s parent i.path).2 :=
    findIncludeFile s parent i.path
  rcases onInclude_cases h with ⟨s₁, missing, ⟨-, rfl⟩ | entered⟩ |
    ⟨k, s₁, found, ⟨q, -, -, rfl⟩ | ⟨-, x, entered⟩⟩
  · rw [missing] at looked
    exact looked.trans (report s₁ _)
  · rw [missing] at looked
    exact ((looked.trans (report s₁ _)).trans (checkAlias _ _ _ _)).trans (enter all entered)
  · rw [found] at looked
    exact looked.trans (checkAlias _ _ _ _)
  · rw [found] at looked
    exact (looked.trans (checkAlias _ _ _ _)).trans (enter all entered)

theorem parseIncludes {r : State × Bool}
    (h : ParseAst.parseIncludes b params root parse parent is includes s = some r) :
    Grows s r.1 := by
  induction is generalizing includes s with
  | nil =>
    rw [ParseAst.parseIncludes, Option.some.injEq] at h
    exact h ▸ refl s
  | cons i is ih =>
    rw [ParseAst.parseIncludes] at h
    rcases first : ParseAst.onInclude b params root parse parent includes i s with
      _ | ⟨s₁, _ | q⟩
    · simp [first] at h
    · rw [first, Option.some.injEq] at h
      exact h ▸ onInclude all first
    · rw [first] at h
      exact (onInclude all first).trans (ih h)

end

theorem parseFile (depth : Nat) (p : Program) (s : State) (r : State × Bool)
    (h : ParseAst.parseFile b params root depth p s = some r) : Grows s r.1 := by
  induction depth generalizing p s r with
  | zero => exact absurd h (by simp [ParseAst.parseFile])
  | succ depth ih =>
    have read : Grows s (ParseAst.getFile b s p.path).2 := getFile s p.path
    rw [ParseAst.parseFile] at h
    rcases opened : ParseAst.getFile b s p.path with ⟨_ | file, s₁⟩
    · rw [opened, Option.some.injEq] at h
      rw [opened] at read
      exact h ▸ read.trans (report s₁ _)
    · rw [opened] at h read
      refine (read.trans ?_).trans (parseIncludes ih h)
      exact of_same rfl rfl (fun _ => id) (List.subset_cons_self _ _) fun _ => id

end Grows

/-- The programs and the files in progress are the same. -/
structure SameBundle (s s' : State) : Prop where
  added : s'.added = s.added
  circularDeps : s'.circularDeps = s.circularDeps
  parsed : s'.parsed = s.parsed

theorem sameBundle_findIncludeFile (s : State) (parent : Program) (x : String) :
    SameBundle s (findIncludeFile b params s parent x).2 := by
  rw [findIncludeFile]
  split
  · exact ⟨rfl, rfl, rfl⟩
  · split <;> exact ⟨rfl, rfl, rfl⟩

theorem sameBundle_checkAlias (s : State) (includes : List (Option String × String))
    (includeAlias : Option String) (k : String) :
    SameBundle s (checkAlias s includes includeAlias k) := by
  cases includeAlias <;> exact ⟨rfl, rfl, rfl⟩

theorem sameBundle_getFile (s : State) (x : String) : SameBundle s (getFile b s x).2 := by
  rw [getFile]
  split
  · exact ⟨rfl, rfl, rfl⟩
  · dsimp only
    split
    · exact ⟨rfl, rfl, rfl⟩
    · split <;> exact ⟨rfl, rfl, rfl⟩

theorem SameBundle.trans {s₁ s₂ s₃ : State} (first : SameBundle s₁ s₂)
    (second : SameBundle s₂ s₃) : SameBundle s₁ s₃ :=
  ⟨second.added.trans first.added, second.circularDeps.trans first.circularDeps,
    second.parsed.trans first.parsed⟩

/-- The root is in progress under the path that it was given by, and no other program has that
for its full path; what else is in progress was added. -/
structure Kept (root : Program) (s : State) : Prop where
  inProgress : root.path ∈ s.circularDeps
  registered : ∀ k ∈ s.circularDeps, k = root.path ∨ ∃ q ∈ s.added, q.fullPath = k
  other : ∀ q ∈ s.added, q.fullPath ≠ root.path

theorem Kept.of_same (kept : Kept root s) (same : SameBundle s s') : Kept root s' := by
  refine ⟨?_, ?_, ?_⟩
  · rw [same.circularDeps]
    exact kept.inProgress
  · rw [same.circularDeps, same.added]
    exact kept.registered
  · rw [same.added]
    exact kept.other

/-- A program whose file was not in progress is added. -/
theorem Kept.register (kept : Kept root s) (x : String) (fresh : k ∉ s.circularDeps) :
    Kept root { s with
      circularDeps := k :: s.circularDeps
      added := ⟨x, k⟩ :: s.added } := by
  refine ⟨List.mem_cons_of_mem k kept.inProgress, ?_, ?_⟩
  · intro k' member
    rcases List.mem_cons.1 member with rfl | older
    · exact .inr ⟨_, List.mem_cons_self, rfl⟩
    · exact (kept.registered k' older).imp_right fun ⟨q, there, same⟩ =>
        ⟨q, List.mem_cons_of_mem _ there, same⟩
  · intro q member
    rcases List.mem_cons.1 member with rfl | older
    · intro (same : k = root.path)
      exact fresh (same ▸ kept.inProgress)
    · exact kept.other q older

/-- What parsing a program keeps: the invariant, and the files in progress where it goes on. -/
def Keeps (params : Params) (root : Program) (parse : Program → State → Option (State × Bool)) :
    Prop :=
  ∀ p s r, parse p s = some r → Kept root s → Kept root r.1 ∧
    (r.2 = false ∨ params.allowMissingIncludes = true → r.1.circularDeps = s.circularDeps)

theorem Kept.enter {r : State × Option Program} (all : Keeps params root parse)
    (kept : Kept root s) (h : ParseAst.enter params parse s x k = some r) :
    Kept root r.1 ∧
      (r.2.isSome ∨ params.allowMissingIncludes = true → r.1.circularDeps = s.circularDeps) := by
  rcases enter_cases h with ⟨-, rfl⟩ | ⟨fresh, s', ended, ran, outcome⟩
  · exact ⟨kept.of_same ⟨rfl, rfl, rfl⟩, fun _ => rfl⟩
  · have registered := kept.register x fresh
    obtain ⟨after, restored⟩ := all _ _ _ ran registered
    rcases outcome with ⟨rfl, strict, rfl⟩ | ⟨goesOn, rfl⟩
    · exact ⟨after, fun goesOn => by simp [strict] at goesOn⟩
    · have erased : s'.circularDeps.erase k = s.circularDeps := by
        rw [restored goesOn, List.erase_cons_head]
      refine ⟨⟨?_, ?_, after.other⟩, fun _ => erased⟩
      · change root.path ∈ s'.circularDeps.erase k
        rw [erased]
        exact kept.inProgress
      · exact fun k' member => after.registered k' (List.mem_of_mem_erase member)

theorem Kept.onInclude {r : State × Option Program} (all : Keeps params root parse)
    (kept : Kept root s)
    (h : ParseAst.onInclude b params root parse parent includes i s = some r) :
    Kept root r.1 ∧
      (r.2.isSome ∨ params.allowMissingIncludes = true → r.1.circularDeps = s.circularDeps) := by
  have looked : SameBundle s (findIncludeFile b params s parent i.path).2 :=
    sameBundle_findIncludeFile s parent i.path
  rcases onInclude_cases h with ⟨s₁, missing, ⟨-, rfl⟩ | entered⟩ |
    ⟨k, s₁, found, ⟨q, -, -, rfl⟩ | ⟨-, x, entered⟩⟩
  · rw [missing] at looked
    have same : SameBundle s (s₁.report (.missingInclude i.path)) :=
      looked.trans ⟨rfl, rfl, rfl⟩
    exact ⟨kept.of_same same, fun _ => same.circularDeps⟩
  · rw [missing] at looked
    have reported : SameBundle s₁ (s₁.report (.missingInclude i.path)) := ⟨rfl, rfl, rfl⟩
    have same := (looked.trans reported).trans
      (sameBundle_checkAlias _ includes i.includeAlias i.path)
    obtain ⟨after, restored⟩ := (kept.of_same same).enter all entered
    exact ⟨after, fun goesOn => (restored goesOn).trans same.circularDeps⟩
  · rw [found] at looked
    have same := looked.trans (sameBundle_checkAlias _ includes i.includeAlias k)
    exact ⟨kept.of_same same, fun _ => same.circularDeps⟩
  · rw [found] at looked
    have same := looked.trans (sameBundle_checkAlias _ includes i.includeAlias k)
    obtain ⟨after, restored⟩ := (kept.of_same same).enter all entered
    exact ⟨after, fun goesOn => (restored goesOn).trans same.circularDeps⟩

theorem Kept.parseIncludes {r : State × Bool} (all : Keeps params root parse) (kept : Kept root s)
    (h : ParseAst.parseIncludes b params root parse parent is includes s = some r) :
    Kept root r.1 ∧ (r.2 = false ∨ params.allowMissingIncludes = true →
        r.1.circularDeps = s.circularDeps) := by
  induction is generalizing includes s with
  | nil =>
    rw [ParseAst.parseIncludes, Option.some.injEq] at h
    exact h ▸ ⟨kept, fun _ => rfl⟩
  | cons i is ih =>
    rw [ParseAst.parseIncludes] at h
    rcases first : ParseAst.onInclude b params root parse parent includes i s with
      _ | ⟨s₁, _ | q⟩
    · simp [first] at h
    · rw [first, Option.some.injEq] at h
      obtain ⟨after, restored⟩ := kept.onInclude all first
      subst h
      exact ⟨after, fun goesOn => restored (goesOn.imp_left fun ended => by simp at ended)⟩
    · rw [first] at h
      obtain ⟨after, restored⟩ := kept.onInclude all first
      obtain ⟨last, rest⟩ := ih after h
      exact ⟨last, fun goesOn => (rest goesOn).trans (restored (.inl rfl))⟩

theorem keeps_parseFile (depth : Nat) : Keeps params root (parseFile b params root depth) := by
  induction depth with
  | zero => exact fun p s r h => absurd h (by simp [parseFile])
  | succ depth ih =>
    intro p s r h kept
    have same : SameBundle s (getFile b s p.path).2 := sameBundle_getFile s p.path
    rw [parseFile] at h
    rcases opened : getFile b s p.path with ⟨_ | file, s₁⟩
    · rw [opened] at h same
      have marked : SameBundle s₁ (s₁.report (.failedToOpen p.path)) := ⟨rfl, rfl, rfl⟩
      have reported := same.trans marked
      rw [Option.some.injEq] at h
      exact h ▸ ⟨kept.of_same reported, fun _ => reported.circularDeps⟩
    · rw [opened] at h same
      have opening : Kept root { s₁ with parsed := (p, file) :: s₁.parsed } :=
        ⟨(kept.of_same same).inProgress, (kept.of_same same).registered, (kept.of_same same).other⟩
      obtain ⟨after, restored⟩ := opening.parseIncludes ih h
      exact ⟨after, fun goesOn => (restored goesOn).trans same.circularDeps⟩

/-! ## The include graph -/

/-- A full path stands for the file of the programs that have it; the path that the root was
given by stands for the file of the root. -/
def Denotes (root : Program) (s : State) (k : String) (file : Nat) : Prop :=
  ∃ p, (p, file) ∈ s.parsed ∧ (p.fullPath = k ∨ (p = root ∧ k = root.path))

/-- A statement of a file is found to name another file. -/
def Includes (b : Backend) (root : Program) (s : State) (file file' : Nat) : Prop :=
  ∃ i ∈ b.text file, ∃ k, s.foundIncludes i.path = some k ∧ Denotes root s k file'

/-- A file from which files lead to a statement that names the root by its path. -/
def Leads (b : Backend) (root : Program) (s : State) (file : Nat) : Prop :=
  ∃ last, Relation.ReflTransGen (Includes b root s) file last ∧
    ∃ i ∈ b.text last, s.foundIncludes i.path = some root.path

/-- A statement that can be reached from the root is found to be the path that the root was given
by. -/
def NamesRoot (b : Backend) (root : Program) (s : State) : Prop :=
  ∃ file, (root, file) ∈ s.parsed ∧ Leads b root s file

/-- A file that can be reached from the root includes itself, by way of any others. -/
def Cyclic (b : Backend) (root : Program) (s : State) : Prop :=
  ∃ file file', (root, file) ∈ s.parsed ∧ Relation.ReflTransGen (Includes b root s) file file' ∧
    Relation.TransGen (Includes b root s) file' file'

/-- A circular dependency is reported. -/
def Reported (s : State) : Prop := ∃ path, .circularDependency path ∈ s.diagnostics

/-- Nothing else is reported. -/
def Untroubled (s : State) : Prop := ∀ d ∈ s.diagnostics, ∃ path, d = .circularDependency path

theorem Grows.edge (grows : Grows s s') {f g : Nat} (edge : Includes b root s f g) :
    Includes b root s' f g := by
  obtain ⟨i, member, k, found, p, parsed, full⟩ := edge
  exact ⟨i, member, k, grows.found found, p, grows.parsed parsed, full⟩

theorem Leads.mono {f : Nat} (leads : Leads b root s f) (grows : Grows s s') :
    Leads b root s' f := by
  obtain ⟨last, path, i, member, found⟩ := leads
  exact ⟨last, Relation.ReflTransGen.mono (fun _ _ => grows.edge) _ _ path, i, member, grows.found found⟩

theorem NamesRoot.cyclic (names : NamesRoot b root s) : Cyclic b root s := by
  obtain ⟨file, isRoot, last, path, i, member, found⟩ := names
  have back : Includes b root s last file :=
    ⟨i, member, root.path, found, root, isRoot, .inr ⟨rfl, rfl⟩⟩
  exact ⟨file, file, isRoot, .refl, Relation.TransGen.tail' path back⟩

theorem Untroubled.of_grows (untroubled : Untroubled s') (grows : Grows s s') : Untroubled s :=
  fun d member => untroubled d (grows.diagnostics member)

theorem not_untroubled_missing (s : State) (x : String) :
    ¬ Untroubled (s.report (.missingInclude x)) := by
  intro untroubled
  obtain ⟨path, same⟩ := untroubled _ (List.mem_append_right _ List.mem_cons_self)
  cases same

/-! ## A report comes from the root -/

theorem diagnostics_findIncludeFile (s : State) (parent : Program) (x : String) :
    (findIncludeFile b params s parent x).2.diagnostics = s.diagnostics := by
  rw [findIncludeFile]
  split
  · rfl
  · split <;> rfl

theorem diagnostics_getFile (s : State) (x : String) :
    (getFile b s x).2.diagnostics = s.diagnostics := by
  rw [getFile]
  split
  · rfl
  · dsimp only
    split
    · rfl
    · split <;> rfl

theorem reported_checkAlias (s : State) (includes : List (Option String × String))
    (includeAlias : Option String) (k : String) :
    Reported (checkAlias s includes includeAlias k) ↔ Reported s := by
  cases includeAlias with
  | none => exact Iff.rfl
  | some name =>
    refine ⟨fun ⟨path, reported⟩ => ⟨path, ?_⟩, fun ⟨path, reported⟩ =>
      ⟨path, List.mem_append_left _ reported⟩⟩
    rcases List.mem_append.1 reported with old | new
    · exact old
    · obtain ⟨known, -, error⟩ := List.mem_flatMap.1 new
      rw [aliasErrors] at error
      split at error
      · exact absurd error List.not_mem_nil
      · rcases List.mem_append.1 error with taken | several
        · split at taken <;> simp at taken
        · split at several <;> simp at several

/-- A circular dependency that parsing a program reports is one that the file leads to. -/
def Tracks (b : Backend) (root : Program) (parse : Program → State → Option (State × Bool)) :
    Prop :=
  ∀ p s r, parse p s = some r → Kept root s → Untroubled r.1 → ¬ Reported s → Reported r.1 →
    ∃ file, (p, file) ∈ r.1.parsed ∧ Leads b root r.1 file

section

variable {file : Nat} (grows : ∀ p s r, parse p s = some r → Grows s r.1)
  (tracks : Tracks b root parse)

include grows tracks

theorem leads_enter {r : State × Option Program} (kept : Kept root s)
    (h : enter params parse s x k = some r) (member : i ∈ b.text file)
    (found : s.foundIncludes i.path = some k) (unknown : ∀ q ∈ s.added, q.fullPath ≠ k)
    (untroubled : Untroubled r.1) (before : ¬ Reported s) (after : Reported r.1) :
    Leads b root r.1 file := by
  rcases enter_cases h with ⟨progress, rfl⟩ | ⟨fresh, s', ended, ran, outcome⟩
  · rcases kept.registered k progress with rfl | ⟨q, there, same⟩
    · exact ⟨file, .refl, i, member, found⟩
    · exact absurd same (unknown q there)
  · have registered := kept.register x fresh
    have same : r.1.diagnostics = s'.diagnostics ∧ Grows s' r.1 := by
      rcases outcome with ⟨-, -, rfl⟩ | ⟨-, rfl⟩
      · exact ⟨rfl, Grows.refl _⟩
      · exact ⟨rfl, Grows.of_same rfl rfl (fun _ => id) (fun _ => id) fun _ => id⟩
    have there : Reported s' := by
      rw [Reported, ← same.1]
      exact after
    obtain ⟨file', opened, leads⟩ :=
      tracks _ _ _ ran registered (untroubled.of_grows same.2) before there
    obtain ⟨last, path, names⟩ := leads
    have edge : Includes b root s' file file' :=
      ⟨i, member, k, (grows _ _ _ ran).found found, _, opened, .inl rfl⟩
    exact Leads.mono ⟨last, .head edge path, names⟩ same.2

theorem leads_onInclude {r : State × Option Program} (kept : Kept root s)
    (h : onInclude b params root parse parent includes i s = some r) (member : i ∈ b.text file)
    (untroubled : Untroubled r.1) (before : ¬ Reported s) (after : Reported r.1) :
    Leads b root r.1 file := by
  have looked := @sameBundle_findIncludeFile b params s parent i.path
  have silent := @diagnostics_findIncludeFile b params s parent i.path
  rcases onInclude_cases h with ⟨s₁, missing, ⟨-, rfl⟩ | entered⟩ | ⟨k, s₁, there, outcome⟩
  · exact absurd untroubled (not_untroubled_missing _ _)
  · have grown := (Grows.checkAlias (s₁.report (.missingInclude i.path)) includes i.includeAlias
      i.path).trans (Grows.enter grows entered)
    exact absurd (untroubled.of_grows grown) (not_untroubled_missing _ _)
  · have found := @findIncludeFile_some b params s parent k i.path (by rw [there])
    rw [there] at looked silent found
    have same := looked.trans (sameBundle_checkAlias s₁ includes i.includeAlias k)
    have quiet : ¬ Reported (checkAlias s₁ includes i.includeAlias k) := by
      rw [reported_checkAlias, Reported, silent]
      exact before
    rcases outcome with ⟨q, -, -, rfl⟩ | ⟨unknown, x, entered⟩
    · exact absurd after quiet
    · have aliased := Grows.checkAlias s₁ includes i.includeAlias k
      refine leads_enter grows tracks (kept.of_same same) entered member
        (aliased.found found) ?_ untroubled quiet after
      rw [(sameBundle_checkAlias s₁ includes i.includeAlias k).added]
      exact unknown

theorem leads_parseIncludes {r : State × Bool} (keeps : Keeps params root parse)
    (kept : Kept root s)
    (h : parseIncludes b params root parse parent is includes s = some r)
    (all : is ⊆ b.text file) (untroubled : Untroubled r.1) (before : ¬ Reported s)
    (after : Reported r.1) : Leads b root r.1 file := by
  induction is generalizing includes s with
  | nil =>
    rw [parseIncludes, Option.some.injEq] at h
    subst h
    exact absurd after before
  | cons i is ih =>
    rw [parseIncludes] at h
    have member : i ∈ b.text file := all List.mem_cons_self
    rcases first : onInclude b params root parse parent includes i s with _ | ⟨s₁, _ | q⟩
    · simp [first] at h
    · rw [first, Option.some.injEq] at h
      subst h
      exact leads_onInclude grows tracks kept first member untroubled before after
    · rw [first] at h
      have rest := Grows.parseIncludes grows h
      by_cases middle : Reported s₁
      · exact (leads_onInclude grows tracks kept first member (untroubled.of_grows rest) before
          middle).mono rest
      · exact ih (kept.onInclude keeps first).1 h
          (fun _ there => all (List.mem_cons_of_mem i there)) middle

end

theorem tracks_parseFile (depth : Nat) : Tracks b root (parseFile b params root depth) := by
  induction depth with
  | zero => exact fun p s r h => absurd h (by simp [parseFile])
  | succ depth ih =>
    intro p s r h kept untroubled before after
    have same : SameBundle s (getFile b s p.path).2 := sameBundle_getFile s p.path
    have silent := diagnostics_getFile (b := b) s p.path
    rw [parseFile] at h
    rcases opened : getFile b s p.path with ⟨_ | file, s₁⟩
    · rw [opened, Option.some.injEq] at h
      subst h
      obtain ⟨path, other⟩ := untroubled _ (List.mem_append_right _ List.mem_cons_self)
      cases other
    · rw [opened] at h same silent
      have opening : Kept root { s₁ with parsed := (p, file) :: s₁.parsed } :=
        ⟨(kept.of_same same).inProgress, (kept.of_same same).registered, (kept.of_same same).other⟩
      have quiet : ¬ Reported { s₁ with parsed := (p, file) :: s₁.parsed } := by
        rw [Reported]
        dsimp only
        rw [silent]
        exact before
      exact ⟨file, (Grows.parseIncludes (Grows.parseFile depth) h).parsed List.mem_cons_self,
        leads_parseIncludes (Grows.parseFile depth) ih (keeps_parseFile depth) opening h
          (fun _ => id) untroubled quiet after⟩

/-! ## What is parsed without a report -/

/-- Each statement of a file is found to be another path than the one the root was given by. -/
def Settled (b : Backend) (root : Program) (s : State) (file : Nat) : Prop :=
  ∀ i ∈ b.text file, ∃ k, s.foundIncludes i.path = some k ∧ k ≠ root.path

theorem Settled.mono {file : Nat} (settled : Settled b root s file) (grows : Grows s s') :
    Settled b root s' file := fun i member =>
  (settled i member).imp fun _ both => ⟨grows.found both.1, both.2⟩

/-- The files of the programs that were parsed in between are settled. -/
def Settles (b : Backend) (root : Program) (s s' : State) : Prop :=
  ∀ e ∈ s'.parsed, e ∈ s.parsed ∨ Settled b root s' e.2

theorem Settles.trans {s₁ s₂ s₃ : State} (first : Settles b root s₁ s₂)
    (second : Settles b root s₂ s₃) (grows : Grows s₂ s₃) : Settles b root s₁ s₃ := by
  intro e member
  rcases second e member with older | settled
  · exact (first e older).imp_right fun settled => settled.mono grows
  · exact .inr settled

theorem Settles.of_same (same : s'.parsed = s.parsed) : Settles b root s s' :=
  fun _ member => .inl (same ▸ member)

/-- Without a report, parsing a program goes on and settles the files that it parses. -/
def Completes (b : Backend) (root : Program) (parse : Program → State → Option (State × Bool)) :
    Prop :=
  ∀ p s r, parse p s = some r → Kept root s → r.1.diagnostics = [] →
    r.2 = false ∧ Settles b root s r.1

theorem ne_nil_of_report (s : State) (d : Diagnostic) : (s.report d).diagnostics ≠ [] := by
  simp [State.report]

theorem nil_of_grows (none : s'.diagnostics = []) (grows : Grows s s') : s.diagnostics = [] :=
  List.eq_nil_iff_forall_not_mem.2 fun d member => by
    have later := grows.diagnostics member
    rw [none] at later
    exact absurd later List.not_mem_nil

section

variable (grows : ∀ p s r, parse p s = some r → Grows s r.1) (completes : Completes b root parse)

include completes

theorem settles_enter {r : State × Option Program} (kept : Kept root s)
    (h : enter params parse s x k = some r) (none : r.1.diagnostics = []) :
    k ≠ root.path ∧ r.2.isSome ∧ Settles b root s r.1 := by
  rcases enter_cases h with ⟨progress, rfl⟩ | ⟨fresh, s', ended, ran, outcome⟩
  · exact absurd none (ne_nil_of_report s _)
  · have silent : s'.diagnostics = [] := by
      rcases outcome with ⟨-, -, rfl⟩ | ⟨-, rfl⟩ <;> exact none
    obtain ⟨goesOn, settles⟩ := completes _ _ _ ran (kept.register x fresh) silent
    rcases outcome with ⟨rfl, -, rfl⟩ | ⟨-, rfl⟩
    · exact absurd goesOn (by simp)
    · exact ⟨fun same => fresh (same ▸ kept.inProgress), rfl, settles⟩

include grows

theorem settles_onInclude {r : State × Option Program} (kept : Kept root s)
    (h : onInclude b params root parse parent includes i s = some r)
    (none : r.1.diagnostics = []) :
    r.2.isSome ∧ (∃ k, r.1.foundIncludes i.path = some k ∧ k ≠ root.path) ∧
      Settles b root s r.1 := by
  have looked := @sameBundle_findIncludeFile b params s parent i.path
  rcases onInclude_cases h with ⟨s₁, missing, ⟨-, rfl⟩ | entered⟩ | ⟨k, s₁, there, outcome⟩
  · exact absurd none (ne_nil_of_report s₁ _)
  · have grown := (Grows.checkAlias (s₁.report (.missingInclude i.path)) includes i.includeAlias
      i.path).trans (Grows.enter grows entered)
    exact absurd (nil_of_grows none grown) (ne_nil_of_report s₁ _)
  · have found := @findIncludeFile_some b params s parent k i.path (by rw [there])
    rw [there] at looked found
    have same := looked.trans (sameBundle_checkAlias s₁ includes i.includeAlias k)
    have aliased := (Grows.checkAlias s₁ includes i.includeAlias k).found found
    rcases outcome with ⟨q, known, full, rfl⟩ | ⟨-, x, entered⟩
    · refine ⟨rfl, ⟨k, aliased, ?_⟩, Settles.of_same same.parsed⟩
      rw [← full]
      exact (kept.of_same looked).other q known
    · obtain ⟨different, goesOn, settles⟩ :=
        settles_enter completes (kept.of_same same) entered none
      refine ⟨goesOn, ⟨k, (Grows.enter grows entered).found aliased, different⟩, ?_⟩
      exact (Settles.of_same same.parsed).trans settles (Grows.enter grows entered)

theorem settles_parseIncludes {r : State × Bool} (keeps : Keeps params root parse)
    (kept : Kept root s)
    (h : parseIncludes b params root parse parent is includes s = some r)
    (none : r.1.diagnostics = []) :
    r.2 = false ∧ (∀ i ∈ is, ∃ k, r.1.foundIncludes i.path = some k ∧ k ≠ root.path) ∧
      Settles b root s r.1 := by
  induction is generalizing includes s with
  | nil =>
    rw [parseIncludes, Option.some.injEq] at h
    subst h
    exact ⟨rfl, fun i member => absurd member List.not_mem_nil, Settles.of_same rfl⟩
  | cons i is ih =>
    rw [parseIncludes] at h
    rcases first : onInclude b params root parse parent includes i s with _ | ⟨s₁, _ | q⟩
    · simp [first] at h
    · rw [first, Option.some.injEq] at h
      subst h
      exact absurd (settles_onInclude grows completes kept first none).1 (by simp)
    · rw [first] at h
      have rest := Grows.parseIncludes grows h
      obtain ⟨-, ⟨k, found, different⟩, settles⟩ :=
        settles_onInclude grows completes kept first (nil_of_grows none rest)
      obtain ⟨goesOn, others, later⟩ := ih (kept.onInclude keeps first).1 h
      refine ⟨goesOn, ?_, settles.trans later rest⟩
      intro i' member
      rcases List.mem_cons.1 member with rfl | other
      · exact ⟨k, rest.found found, different⟩
      · exact others i' other

end

theorem completes_parseFile (depth : Nat) : Completes b root (parseFile b params root depth) := by
  induction depth with
  | zero => exact fun p s r h => absurd h (by simp [parseFile])
  | succ depth ih =>
    intro p s r h kept none
    have same := sameBundle_getFile (b := b) s p.path
    rw [parseFile] at h
    rcases opened : getFile b s p.path with ⟨_ | file, s₁⟩
    · rw [opened, Option.some.injEq] at h
      subst h
      exact absurd none (ne_nil_of_report s₁ _)
    · rw [opened] at h same
      have opening : Kept root { s₁ with parsed := (p, file) :: s₁.parsed } :=
        ⟨(kept.of_same same).inProgress, (kept.of_same same).registered, (kept.of_same same).other⟩
      obtain ⟨goesOn, settled, settles⟩ := settles_parseIncludes (Grows.parseFile depth) ih
        (keeps_parseFile depth) opening h none
      refine ⟨goesOn, fun e member => ?_⟩
      rcases settles e member with older | new
      · rcases List.mem_cons.1 older with rfl | before
        · exact .inr settled
        · exact .inl (same.parsed ▸ before)
      · exact .inr new

/-! ## The parsing ends -/

/-- The paths that the include statements of the files spell. -/
def Backend.spelled (b : Backend) : List String := (b.files.flatten.map Include.path).dedup

theorem Backend.mem_spelled {file : Nat} (member : i ∈ b.text file) : i.path ∈ b.spelled := by
  rw [Backend.spelled, List.mem_dedup]
  refine List.mem_map.2 ⟨i, List.mem_flatten.2 ⟨b.text file, ?_, member⟩, rfl⟩
  rw [Backend.text, List.getD_eq_getElem?_getD] at member ⊢
  cases there : b.files[file]? with
  | none => simp [there] at member
  | some text => exact List.mem_of_getElem? there

/-- What a spelled path is found to be, or is as its file was read. -/
def Known (s : State) (x k : String) : Prop :=
  s.foundIncludes x = some k ∨ (s.foundIncludes x = none ∧ (s.fileSourceMap x).isSome ∧ k = x)

theorem Known.mono (known : Known s x k) (grows : Grows s s') : Known s' x k := by
  rcases known with found | ⟨unknown, read, rfl⟩
  · exact .inl (grows.found found)
  · cases now : s'.foundIncludes k with
    | none => exact .inr ⟨now, grows.source read, rfl⟩
    | some k' => exact .inl (now.trans (congrArg some (grows.spelled unknown read now)))

theorem Known.find (known : Known s x k) (parent : Program) :
    (findIncludeFile b params s parent x).1 = some k := by
  rcases known with found | ⟨unknown, read, rfl⟩
  · simp [findIncludeFile, found]
  · have there : search b params s parent k = some k := if_pos read
    simp [findIncludeFile, unknown, there]

theorem known_of_getFile {file : Nat} (unknown : s.foundIncludes x = none)
    (read : getFile b s x = (some file, s')) : Known s' x x := by
  rw [getFile] at read
  cases source : s.fileSourceMap x with
  | some file' =>
    simp only [source, Prod.mk.injEq] at read
    exact .inr ⟨read.2 ▸ unknown, by simp [← read.2, source], rfl⟩
  | none =>
    simp only [source, unknown, Option.getD_none] at read
    cases disk : b.readFile x with
    | none => simp [disk] at read
    | some file' =>
      simp only [disk, Prod.mk.injEq] at read
      exact .inr ⟨by rw [← read.2]; exact unknown, by simp [← read.2], rfl⟩

/-- The statements in progress spell paths whose files are in progress. -/
def Blocked (s : State) (stack : List String) : Prop :=
  ∀ x ∈ stack, ∃ k ∈ s.circularDeps, Known s x k

theorem Blocked.mono {stack : List String} (blocked : Blocked s stack) (grows : Grows s s')
    (deps : s.circularDeps ⊆ s'.circularDeps) : Blocked s' stack := fun x member =>
  let ⟨k, progress, known⟩ := blocked x member
  ⟨k, deps progress, known.mono grows⟩

/-- The parsing of a program ends when fewer paths are spelled than the statements in progress and
the depth make. -/
def Halts (b : Backend) (root : Program) (parse : Program → State → Option (State × Bool))
    (depth : Nat) : Prop :=
  ∀ p s stack, Kept root s → stack.Nodup → stack ⊆ b.spelled →
    b.spelled.length < stack.length + depth →
    (∀ x ∈ stack, (∃ k ∈ s.circularDeps, Known s x k) ∨
      (x = p.path ∧ s.foundIncludes x = none ∧ x ∈ s.circularDeps)) →
    (parse p s).isSome

theorem enter_isSome (halts : k ∉ s.circularDeps → (parse ⟨x, k⟩ { s with
      circularDeps := k :: s.circularDeps
      added := ⟨x, k⟩ :: s.added }).isSome) : (enter params parse s x k).isSome := by
  rw [enter]
  split
  · rfl
  · next fresh =>
      obtain ⟨⟨s', ended⟩, ran⟩ := Option.isSome_iff_exists.1 (halts fresh)
      dsimp only
      rw [ran]
      dsimp only
      split <;> rfl

section

variable {depth : Nat} {stack : List String} (halts : Halts b root parse depth)

include halts

theorem onInclude_isSome (kept : Kept root s) (nodup : stack.Nodup) (inside : stack ⊆ b.spelled)
    (enough : b.spelled.length < stack.length + (depth + 1)) (blocked : Blocked s stack)
    (spelled : i.path ∈ b.spelled) :
    (onInclude b params root parse parent includes i s).isSome := by
  have looked := @sameBundle_findIncludeFile b params s parent i.path
  have grown := @Grows.findIncludeFile b params s parent i.path
  -- A statement whose path is in progress enters no file.
  have nested : ∀ (s₂ : State) (y k : String), SameBundle s s₂ → Grows s s₂ →
      i.path ∉ stack → k ∉ s₂.circularDeps →
      (Known s₂ i.path k ∨ (i.path = y ∧ s₂.foundIncludes i.path = none ∧ i.path = k)) →
      (parse ⟨y, k⟩ { s₂ with
        circularDeps := k :: s₂.circularDeps
        added := ⟨y, k⟩ :: s₂.added }).isSome := by
    intro s₂ y k same grows new fresh entry
    have pushing : Grows s₂ { s₂ with
        circularDeps := k :: s₂.circularDeps
        added := ⟨y, k⟩ :: s₂.added } :=
      .of_same rfl rfl (List.subset_cons_self _ _) (fun _ => id) fun _ => id
    refine halts _ _ (i.path :: stack) ((kept.of_same same).register y fresh)
      (List.nodup_cons.2 ⟨new, nodup⟩) (List.cons_subset.2 ⟨spelled, inside⟩)
      (by rw [List.length_cons]; omega) ?_
    intro x member
    rcases List.mem_cons.1 member with rfl | older
    · rcases entry with known | ⟨rfl, unknown, rfl⟩
      · exact .inl ⟨k, List.mem_cons_self, known.mono pushing⟩
      · exact .inr ⟨rfl, unknown, List.mem_cons_self⟩
    · refine .inl (blocked.mono (grows.trans pushing) ?_ x older)
      intro k' progress
      exact List.mem_cons_of_mem k (same.circularDeps ▸ progress)
  rw [onInclude]
  rcases found : findIncludeFile b params s parent i.path with ⟨_ | k, s₁⟩
  · rw [found] at looked grown
    dsimp only
    split
    · have reported : SameBundle s₁ (s₁.report (.missingInclude i.path)) := ⟨rfl, rfl, rfl⟩
      have same := (looked.trans reported).trans
        (sameBundle_checkAlias _ includes i.includeAlias i.path)
      have grows := (grown.trans (Grows.report s₁ (.missingInclude i.path))).trans
        (Grows.checkAlias _ includes i.includeAlias i.path)
      have unfound : ∀ k, ¬ Known s i.path k := by
        intro k known
        have there := @Known.find b params _ _ _ known parent
        rw [found] at there
        cases there
      have unknown : s₁.foundIncludes i.path = none := by
        cases now : s.foundIncludes i.path with
        | some k => exact absurd (.inl now) (unfound k)
        | none =>
          cases searched : search b params s parent i.path with
          | some k => simp [findIncludeFile, now, searched] at found
          | none =>
            simp only [findIncludeFile, now, searched, Prod.mk.injEq, true_and] at found
            rw [← found]
            exact now
      refine enter_isSome fun fresh => nested _ _ _ same grows ?_ fresh (.inr ⟨rfl, ?_, rfl⟩)
      · intro member
        obtain ⟨k, -, known⟩ := blocked _ member
        exact unfound k known
      · cases i.includeAlias <;> exact unknown
    · rfl
  · have there := @findIncludeFile_some b params s parent k i.path (by rw [found])
    rw [found] at looked grown there
    have same := looked.trans (sameBundle_checkAlias s₁ includes i.includeAlias k)
    have grows := grown.trans (Grows.checkAlias s₁ includes i.includeAlias k)
    have known : Known (checkAlias s₁ includes i.includeAlias k) i.path k :=
      .inl ((Grows.checkAlias s₁ includes i.includeAlias k).found there)
    have new : k ∉ (checkAlias s₁ includes i.includeAlias k).circularDeps → i.path ∉ stack := by
      intro fresh member
      obtain ⟨k', progress, known⟩ := blocked _ member
      have also := @Known.find b params _ _ _ known parent
      rw [found] at also
      cases also
      exact fresh (same.circularDeps ▸ progress)
    dsimp only
    split
    · rfl
    · exact enter_isSome fun fresh => nested _ _ _ same grows (new fresh) fresh (.inl known)
    · exact enter_isSome fun fresh => nested _ _ _ same grows (new fresh) fresh (.inl known)

theorem parseIncludes_isSome (keeps : Keeps params root parse)
    (grows : ∀ p s r, parse p s = some r → Grows s r.1) (kept : Kept root s)
    (nodup : stack.Nodup) (inside : stack ⊆ b.spelled)
    (enough : b.spelled.length < stack.length + (depth + 1)) (blocked : Blocked s stack)
    (spelled : ∀ i ∈ is, i.path ∈ b.spelled) :
    (parseIncludes b params root parse parent is includes s).isSome := by
  induction is generalizing includes s with
  | nil => rfl
  | cons i is ih =>
    have some : (onInclude b params root parse parent includes i s).isSome :=
      onInclude_isSome halts kept nodup inside enough blocked (spelled i List.mem_cons_self)
    rw [parseIncludes]
    rcases first : onInclude b params root parse parent includes i s with _ | ⟨s₁, _ | q⟩
    · rw [first] at some
      exact absurd some (by decide)
    · rfl
    · obtain ⟨after, restored⟩ := kept.onInclude keeps first
      refine ih after (blocked.mono (Grows.onInclude grows first) ?_) fun i' member =>
        spelled i' (List.mem_cons_of_mem i member)
      exact fun k progress => (restored (.inl rfl)).symm ▸ progress

end

theorem halts_parseFile (depth : Nat) : Halts b root (parseFile b params root depth) depth := by
  induction depth with
  | zero =>
    intro p s stack _ nodup inside enough
    have small := (nodup.subperm inside).length_le
    omega
  | succ depth ih =>
    intro p s stack kept nodup inside enough ready
    have same := sameBundle_getFile (b := b) s p.path
    have grown := Grows.getFile (b := b) s p.path
    rw [parseFile]
    rcases opened : getFile b s p.path with ⟨_ | file, s₁⟩
    · rfl
    · rw [opened] at same grown
      have opening : Kept root { s₁ with parsed := (p, file) :: s₁.parsed } :=
        ⟨(kept.of_same same).inProgress, (kept.of_same same).registered, (kept.of_same same).other⟩
      have opens : Grows s₁ { s₁ with parsed := (p, file) :: s₁.parsed } :=
        .of_same rfl rfl (fun _ => id) (List.subset_cons_self _ _) fun _ => id
      refine parseIncludes_isSome ih (keeps_parseFile depth) (Grows.parseFile depth) opening
        nodup inside enough ?_ fun i => Backend.mem_spelled
      intro x member
      rcases ready x member with ⟨k, progress, known⟩ | ⟨rfl, unknown, progress⟩
      · exact ⟨k, same.circularDeps.symm ▸ progress, (known.mono grown).mono opens⟩
      · exact ⟨p.path, same.circularDeps.symm ▸ progress,
          (known_of_getFile unknown opened).mono opens⟩

/-! ## More depth changes nothing -/

section

variable {parse' : Program → State → Option (State × Bool)}
  (more : ∀ p s r, parse p s = some r → parse' p s = some r)

include more

theorem enter_more {r : State × Option Program} (h : enter params parse s x k = some r) :
    enter params parse' s x k = some r := by
  rw [enter] at h ⊢
  split
  · next progress => rwa [if_pos progress] at h
  · next fresh =>
      rw [if_neg fresh] at h
      dsimp only at h ⊢
      cases ran : parse ⟨x, k⟩ { s with
          circularDeps := k :: s.circularDeps
          added := ⟨x, k⟩ :: s.added } with
      | none => simp [ran] at h
      | some result =>
        rw [more _ _ _ ran]
        rwa [ran] at h

theorem onInclude_more {r : State × Option Program}
    (h : onInclude b params root parse parent includes i s = some r) :
    onInclude b params root parse' parent includes i s = some r := by
  rw [onInclude] at h ⊢
  rcases found : findIncludeFile b params s parent i.path with ⟨_ | k, s₁⟩
  · rw [found] at h
    dsimp only at h ⊢
    split
    · next allow =>
        rw [if_pos allow] at h
        exact enter_more more h
    · next strict => rwa [if_neg strict] at h
  · rw [found] at h
    dsimp only at h ⊢
    cases registered : findProgramByFullPath root (checkAlias s₁ includes i.includeAlias k) k with
    | included q => rwa [registered] at h
    | root =>
      rw [registered] at h
      exact enter_more more h
    | nothing =>
      rw [registered] at h
      exact enter_more more h

theorem parseIncludes_more {r : State × Bool}
    (h : parseIncludes b params root parse parent is includes s = some r) :
    parseIncludes b params root parse' parent is includes s = some r := by
  induction is generalizing includes s with
  | nil => exact h
  | cons i is ih =>
    rw [parseIncludes] at h ⊢
    rcases first : onInclude b params root parse parent includes i s with _ | ⟨s₁, _ | q⟩
    · simp [first] at h
    · rw [onInclude_more more first]
      rwa [first] at h
    · rw [onInclude_more more first]
      rw [first] at h
      exact ih h

end

theorem parseFile_succ (depth : Nat) (p : Program) (s : State) (r : State × Bool)
    (h : parseFile b params root depth p s = some r) :
    parseFile b params root (depth + 1) p s = some r := by
  induction depth generalizing p s r with
  | zero => exact absurd h (by simp [parseFile])
  | succ depth ih =>
    rw [parseFile] at h ⊢
    rcases opened : getFile b s p.path with ⟨_ | file, s₁⟩
    · rwa [opened] at h
    · rw [opened] at h
      exact parseIncludes_more ih h

theorem parseFile_add {depth : Nat} {p : Program} {r : State × Bool}
    (h : parseFile b params root depth p s = some r) (n : Nat) :
    parseFile b params root (depth + n) p s = some r := by
  induction n with
  | zero => exact h
  | succ n ih => exact parseFile_succ (depth + n) p s r ih

/-! ## Which cycles are reported -/

variable {foundIncludes : String → Option String} {fileSourceMap : String → Option Nat}
  {path : String}

theorem kept_start : Kept (rootProgram b (start foundIncludes fileSourceMap path) path)
      (start foundIncludes fileSourceMap path) :=
  ⟨List.mem_cons_self, fun _ member => .inl (List.mem_singleton.1 member),
    fun _ member => absurd member List.not_mem_nil⟩

/-- When nothing else is reported, a circular dependency is reported if and only if a statement
names the root by the path that it was given by. -/
theorem reported_iff_namesRoot {depth : Nat}
    (h : parseAst b params depth foundIncludes fileSourceMap path = some s)
    (untroubled : Untroubled s) :
    Reported s ↔ NamesRoot b (rootProgram b (start foundIncludes fileSourceMap path) path) s := by
  obtain ⟨⟨s', ended⟩, ran, rfl⟩ := Option.map_eq_some_iff.1 h
  have fresh : ¬ Reported (start foundIncludes fileSourceMap path) := fun ⟨_, member⟩ =>
    absurd member List.not_mem_nil
  constructor
  · intro reported
    obtain ⟨file, opened, leads⟩ :=
      tracks_parseFile depth _ _ _ ran kept_start untroubled fresh reported
    exact ⟨file, opened, leads⟩
  · rintro ⟨file, opened, last, reached, i, member, found⟩
    by_contra unreported
    have silent : s'.diagnostics = [] := List.eq_nil_iff_forall_not_mem.2 fun d there => by
      obtain ⟨x, rfl⟩ := untroubled d there
      exact unreported ⟨x, there⟩
    obtain ⟨-, settles⟩ := completes_parseFile depth _ _ _ ran kept_start silent
    have settled : ∀ e ∈ s'.parsed, Settled b _ s' e.2 := fun e there =>
      (settles e there).resolve_left List.not_mem_nil
    -- Each file that is reached was parsed.
    have parsed : ∃ p, (p, last) ∈ s'.parsed := by
      rcases reached.cases_tail with rfl | ⟨before, -, -, -, -, -, p, there, -⟩
      · exact ⟨_, opened⟩
      · exact ⟨p, there⟩
    obtain ⟨p, there⟩ := parsed
    obtain ⟨k, also, different⟩ := settled _ there i member
    rw [found] at also
    exact different (Option.some.inj also).symm

/-- The parsing ends, with the same state from some depth on.  When nothing else is reported, a
circular dependency is reported exactly for the include graphs with a cycle if and only if a
graph with a cycle has a statement that names the root by the path that it was given by. -/
theorem reports_cycles_iff (b : Backend) (params : Params)
    (foundIncludes : String → Option String) (fileSourceMap : String → Option Nat)
    (path : String) :
    ∃ s, (∀ depth, b.spelled.length < depth →
        parseAst b params depth foundIncludes fileSourceMap path = some s) ∧
      (Untroubled s → ((Reported s ↔
            Cyclic b (rootProgram b (start foundIncludes fileSourceMap path) path) s) ↔
          (Cyclic b (rootProgram b (start foundIncludes fileSourceMap path) path) s →
            NamesRoot b (rootProgram b (start foundIncludes fileSourceMap path) path) s))) := by
  let s := start foundIncludes fileSourceMap path
  let root := rootProgram b s path
  have ends : (parseFile b params root (b.spelled.length + 1) root s).isSome :=
    halts_parseFile (b.spelled.length + 1) root s [] kept_start List.nodup_nil
      (List.nil_subset _) (by simp) fun x member => absurd member List.not_mem_nil
  obtain ⟨r, ran⟩ := Option.isSome_iff_exists.1 ends
  have all : ∀ depth, b.spelled.length < depth →
      parseAst b params depth foundIncludes fileSourceMap path = some r.1 := by
    intro depth enough
    obtain ⟨n, rfl⟩ := Nat.exists_eq_add_of_lt enough
    have more := parseFile_add ran n
    rw [show b.spelled.length + n + 1 = b.spelled.length + 1 + n by omega]
    exact congrArg (Option.map Prod.fst) more
  refine ⟨r.1, all, fun untroubled => ?_⟩
  have reported := reported_iff_namesRoot (all _ (Nat.lt_succ_self _)) untroubled
  rw [reported]
  exact ⟨fun same => same.2, fun names => ⟨NamesRoot.cyclic, names⟩⟩

/-! ## A cycle that is not reported -/

/-- A root that includes `a`, and two files that include each other. -/
def twoIncludes : Backend where
  files := [[⟨"a", none⟩], [⟨"b", none⟩], [⟨"a", none⟩]]
  readFile := fun x => if x = "r" then some 0 else if x = "a" then some 1 else
    if x = "b" then some 2 else none
  pathExists := fun x => x = "a" ∨ x = "b"
  absolute := fun x => "/" ++ x
  canonical := fun _ => none
  hasRootDirectory := fun _ => false
  parentPath := fun _ => ""
  join := fun x y => x ++ "/" ++ y

/-- No depth reports the cycle of the two files. -/
theorem not_reports_all_cycles : ¬ ∀ (b : Backend) (params : Params)
    (foundIncludes : String → Option String) (fileSourceMap : String → Option Nat)
    (path : String) (depth : Nat) (s : State),
    parseAst b params depth foundIncludes fileSourceMap path = some s → Untroubled s → (Reported s ↔
        Cyclic b (rootProgram b (start foundIncludes fileSourceMap path) path) s) := by
  intro all
  have ran : ∃ s, parseAst twoIncludes ⟨["."], true, false⟩ 4 (fun _ => none) (fun _ => none) "r" =
      some s ∧ s.diagnostics = [] ∧ s.foundIncludes "a" = some "a" ∧
      s.foundIncludes "b" = some "b" ∧
      s.parsed = [(⟨"b", "b"⟩, 2), (⟨"a", "a"⟩, 1), (⟨"r", "/r"⟩, 0)] :=
    ⟨_, rfl, rfl, rfl, rfl, rfl⟩
  obtain ⟨s, ran, silent, a, b, parsed⟩ := ran
  have untroubled : Untroubled s := fun d member => by
    rw [silent] at member
    exact absurd member List.not_mem_nil
  have edge : ∀ {f x g}, (⟨x, none⟩ : Include) ∈ twoIncludes.text f →
      s.foundIncludes x = some x → (⟨x, x⟩, g) ∈ s.parsed →
      Includes twoIncludes ⟨"r", "/r"⟩ s f g := fun member found there =>
    ⟨_, member, _, found, _, there, .inl rfl⟩
  have first : Includes twoIncludes ⟨"r", "/r"⟩ s 0 1 :=
    edge (by decide) a (by simp [parsed])
  have second : Includes twoIncludes ⟨"r", "/r"⟩ s 1 2 :=
    edge (by decide) b (by simp [parsed])
  have third : Includes twoIncludes ⟨"r", "/r"⟩ s 2 1 :=
    edge (by decide) a (by simp [parsed])
  have cyclic : Cyclic twoIncludes ⟨"r", "/r"⟩ s :=
    ⟨0, 1, by simp [parsed], .single first, .head second (.single third)⟩
  obtain ⟨x, member⟩ := (all _ _ _ _ _ _ _ ran untroubled).2 cyclic
  rw [silent] at member
  exact absurd member List.not_mem_nil

end ParseAst

end FbThrift
