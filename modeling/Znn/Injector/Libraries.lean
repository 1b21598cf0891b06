import Znn.Injector.ModuleTable
import Znn.Lists.Keyed

/-!
# Which libraries a process gets

A process is seized if it matches the flat list of targets, and gets the libraries of the
declarations that match it. The two are computed by separate loops. On a file system that does not
change meanwhile the libraries are the first occurrences of the resolved paths, and there are none
for a process that the list does not match.
-/

namespace Znn.Injector

open Interaction

/-- The table as it is collected: in the order of the ids, with the targets of the declarations. -/
structure Modules.Declared (modules : Modules) : Prop where
  sorted : modules.Pairwise fun module other => module.id < other.id
  targets : ∀ module ∈ modules, module.targets = module.declarations.map Declaration.target

theorem Modules.declared_of_ordered {modules : Modules}
    (ordered : modules.Ordered fun module =>
      module.targets = module.declarations.map Declaration.target) : modules.Declared :=
  ⟨ordered.sorted, ordered.each⟩

namespace Targets

/-- The table that is collected has the targets of its declarations. -/
theorem declared_collect {previous : Modules} (before : Modules.Declared previous) :
    (collect previous).Returns Modules.Declared := by
  have made : ∀ module, Collected previous module →
      module.targets = module.declarations.map Declaration.target := by
    intro module collected
    cases collected with
    | kept known => exact before.targets module known
    | fresh targets => exact targets
    | renewed _ targets => exact targets
  apply Prog.Returns.mono (ordered_collect ⟨before.sorted, before.targets⟩ made)
  exact fun modules => Modules.declared_of_ordered

section Paths

/-- A name between the slashes of a canonical path. -/
def CanonicalName (name : List Char) : Prop :=
  name ≠ [] ∧ '/' ∉ name ∧ name ≠ ['.'] ∧ name ≠ ['.', '.']

/-- The absolute path of these names. -/
def render (names : List (List Char)) : List Char :=
  if names = [] then ['/'] else names.flatMap fun name => '/' :: name

/-- A file system that stays as it is: the canonical path of every path that has one. -/
structure FileSystem where
  canonicalize : String → Option String
  canonical : ∀ path target, canonicalize path = some target →
    ∃ names, (∀ name ∈ names, CanonicalName name) ∧ target.toList = render names

/-- The environment that has this file system. -/
def FileSystem.machine (files : FileSystem) : Machine Sys Unit where
  Step _ request answer _ :=
    match request, answer with
    | .canonicalize path, answer => answer = files.canonicalize path
    | _, _ => True

theorem splitOn_append_of_not_mem {name : List Char} (clear : '/' ∉ name) (text : List Char) :
    (name ++ text).splitOn '/' = (text.splitOn '/').modifyHead (name ++ ·) := by
  induction name with
  | nil =>
      have same : (fun piece : List Char => [] ++ piece) = id := rfl
      rw [List.nil_append, same, List.modifyHead_id]
      rfl
  | cons symbol name ih =>
      have other : ¬(symbol == '/') = true := by
        rw [beq_iff_eq]
        rintro rfl
        exact clear List.mem_cons_self
      rw [List.cons_append, List.splitOn_cons_eq_if_modifyHead, if_neg other,
        ih fun member => clear (List.mem_cons_of_mem _ member), List.modifyHead_modifyHead]
      rfl

/-- The components of a canonical path are its names. -/
theorem components_render {path : String} {names : List (List Char)}
    (canonical : ∀ name ∈ names, CanonicalName name) (isPath : path.toList = render names) :
    components path = names := by
  have cut : (names.flatMap fun name => '/' :: name).splitOn '/' = [] :: names := by
    clear isPath
    induction names with
    | nil => rfl
    | cons name names ih =>
        have rest := ih fun other member => canonical other (List.mem_cons_of_mem _ member)
        rw [List.flatMap_cons, List.cons_append, List.splitOn_cons_eq_if_modifyHead,
          if_pos (beq_self_eq_true '/'),
          splitOn_append_of_not_mem (canonical name List.mem_cons_self).2.1, rest]
        simp
  have solid : names.filter (fun name => !name.isEmpty) = names := by
    rw [List.filter_eq_self]
    intro name member
    simpa using (canonical name member).1
  rw [components, isPath, render]
  by_cases root : names = []
  · rw [root]
    rfl
  · rw [if_neg root, cut]
    exact solid

end Paths

section Resolving

variable (files : FileSystem)

/-- The path lies below the directory, once both are canonical. -/
def StrictlyInside (moduleDir path : String) : Prop :=
  ∃ module, files.canonicalize moduleDir = some module ∧
    components module <+: components path ∧ components module ≠ components path

/-- What `resolve_library` finds. -/
def resolved (moduleDir library : String) : Option String := do
  let library ← files.canonicalize (join moduleDir library)
  let module ← files.canonicalize moduleDir
  if library = module ∨ ¬components module <+: components library then none else some library

theorem wp_resolveLibrary (moduleDir library : String) :
    (resolveLibrary moduleDir library).wp files.machine
      (fun path _ => path = resolved files moduleDir library) () := by
  intro target _ answered
  have isTarget : target = files.canonicalize (join moduleDir library) := answered
  cases found : files.canonicalize (join moduleDir library) with
  | none =>
      rw [isTarget, found, resolved, found]
      rfl
  | some target =>
      rw [isTarget, found]
      intro module _ answered
      have isModule : module = files.canonicalize moduleDir := answered
      cases directory : files.canonicalize moduleDir with
      | none =>
          rw [isModule, directory, resolved, found, directory]
          rfl
      | some module =>
          have value : resolved files moduleDir library =
              if target = module ∨ ¬components module <+: components target then none
              else some target := by
            rw [resolved, found, directory]
            rfl
          rw [isModule, directory, value]
          simp only [Prog.pure_bind']
          by_cases outside : target = module ∨ ¬components module <+: components target
          · rw [if_pos outside, if_pos outside]
            rfl
          · rw [if_neg outside, if_neg outside]
            rfl

/-- Different canonical paths have different components. -/
theorem strictlyInside_of_resolved {moduleDir library path : String}
    (found : resolved files moduleDir library = some path) : StrictlyInside files moduleDir path := by
  simp only [resolved, Option.bind_eq_bind, Option.bind_eq_some_iff] at found
  rcases found with ⟨target, isTarget, module, isModule, found⟩
  split at found
  case isTrue => cases found
  case isFalse inside =>
    cases found
    rw [not_or, not_not] at inside
    refine ⟨module, isModule, inside.2, ?_⟩
    intro same
    rcases files.canonical _ _ isTarget with ⟨names, canonical, isPath⟩
    rcases files.canonical _ _ isModule with ⟨names', canonical', isPath'⟩
    rw [components_render canonical isPath, components_render canonical' isPath'] at same
    apply inside.1
    rw [← String.toList_inj, isPath, isPath', same]

end Resolving

section Selecting

variable (files : FileSystem) (exe : String)

def directory (module : ModuleInfo) : String :=
  MODULES_DIR ++ "/" ++ module.id

/-- The library that a declaration asks for, if it matches and the library is found. -/
def candidate (module : ModuleInfo) (declaration : Declaration) : Option ModuleLibrary :=
  if declaration.target.matches exe then
    (resolved files (directory module) declaration.library).map fun path =>
      ⟨path, declaration.companion⟩
  else
    none

/-- The libraries that are asked for, by the order of the modules and of their declarations. -/
def candidates (modules : Modules) : List ModuleLibrary :=
  modules.flatMap fun module => module.declarations.filterMap (candidate files exe module)

theorem insertNew_path (libraries : List ModuleLibrary) (library : ModuleLibrary) :
    Keyed.insertNew ModuleLibrary.path libraries library =
      if libraries.any fun seen => seen.path == library.path then libraries
      else libraries ++ [library] :=
  rfl

theorem wp_librariesOf (module : ModuleInfo) (libraries : List ModuleLibrary)
    (declarations : List Declaration) :
    (librariesOf (directory module) exe libraries declarations).wp files.machine
      (fun result _ => result = (declarations.filterMap (candidate files exe module)).foldl
        (Keyed.insertNew ModuleLibrary.path) libraries) () := by
  induction declarations generalizing libraries with
  | nil => rfl
  | cons declaration declarations ih =>
      rw [librariesOf, List.filterMap_cons, candidate]
      by_cases isMatch : declaration.target.matches exe = true
      · rw [if_neg (by simp [isMatch]), if_pos isMatch]
        change (Prog.bind _ _).wp _ _ _
        rw [Prog.wp_bind]
        apply Prog.wp_mono (wp_resolveLibrary files (directory module) declaration.library)
        rintro path ⟨⟩ rfl
        cases resolved files (directory module) declaration.library with
        | none => exact ih libraries
        | some path =>
            rw [Option.map_some]
            dsimp only
            rw [List.foldl_cons, insertNew_path]
            by_cases seen : (libraries.any fun seen => seen.path == path) = true
            · rw [if_pos seen, if_pos seen]
              exact ih libraries
            · rw [if_neg seen, if_neg seen]
              exact ih _
      · rw [if_pos (by simp [isMatch]), if_neg isMatch]
        exact ih libraries

theorem wp_librariesFrom (libraries : List ModuleLibrary) (modules : Modules) :
    (librariesFrom exe libraries modules).wp files.machine
      (fun result _ => result = (candidates files exe modules).foldl
        (Keyed.insertNew ModuleLibrary.path) libraries) () := by
  induction modules generalizing libraries with
  | nil => rfl
  | cons module modules ih =>
      rw [librariesFrom]
      change (Prog.bind _ _).wp _ _ _
      rw [Prog.wp_bind]
      apply Prog.wp_mono (wp_librariesOf files exe module libraries module.declarations)
      rintro middle ⟨⟩ rfl
      rw [candidates, List.flatMap_cons, List.foldl_append]
      exact ih _

theorem wp_librariesFor (modules : Modules) :
    (librariesFor modules exe).wp files.machine
      (fun libraries _ => libraries = Keyed.keepFirst ModuleLibrary.path
        (candidates files exe modules)) () :=
  wp_librariesFrom files exe [] modules

variable {files exe}

theorem mem_candidates {modules : Modules} {library : ModuleLibrary} :
    library ∈ candidates files exe modules ↔
      ∃ module ∈ modules, ∃ declaration ∈ module.declarations,
        declaration.target.matches exe = true ∧
          resolved files (directory module) declaration.library = some library.path ∧
            library.companion = declaration.companion := by
  rw [candidates, List.mem_flatMap]
  apply exists_congr
  intro module
  rw [List.mem_filterMap]
  apply and_congr_right
  intro _
  apply exists_congr
  intro declaration
  apply and_congr_right
  intro _
  rw [candidate]
  split
  case isTrue isMatch =>
    rw [Option.map_eq_some_iff]
    constructor
    · rintro ⟨path, found, rfl⟩
      exact ⟨isMatch, found, rfl⟩
    · rintro ⟨_, found, companion⟩
      exact ⟨library.path, found, by rw [← companion]⟩
  case isFalse noMatch => simp [noMatch]

/-- The flat list has the targets of every module. -/
theorem mem_flatten {modules : Modules} {target : Target} :
    target ∈ flatten modules ↔ ∃ module ∈ modules, target ∈ module.targets := by
  have turn : (fun targets target => if target ∈ targets then targets else targets ++ [target]) =
      Keyed.insertNew (@id Target) := by
    funext targets target
    by_cases known : target ∈ targets
    · rw [if_pos known, Keyed.insertNew_of_mem (by simpa using known)]
    · rw [if_neg known, Keyed.insertNew_of_not_mem (by simpa using known)]
  have kept := @Keyed.map_keepFirst Target Target _ id (modules.flatMap ModuleInfo.targets)
  rw [List.map_id, List.map_id] at kept
  rw [flatten, turn]
  change target ∈ Keyed.keepFirst id _ ↔ _
  rw [kept, List.mem_eraseDups, List.mem_flatMap]

theorem matches_flatten_iff {modules : Modules} (declared : Modules.Declared modules) :
    «matches» (flatten modules) exe = true ↔ ∃ module ∈ modules,
      ∃ declaration ∈ module.declarations, declaration.target.matches exe = true := by
  rw [«matches», List.any_eq_true]
  constructor
  · rintro ⟨target, inFlat, isMatch⟩
    rcases mem_flatten.mp inFlat with ⟨module, inTable, inTargets⟩
    rw [declared.targets module inTable] at inTargets
    rcases List.mem_map.mp inTargets with ⟨declaration, isDeclared, rfl⟩
    exact ⟨module, inTable, declaration, isDeclared, isMatch⟩
  · rintro ⟨module, inTable, declaration, isDeclared, isMatch⟩
    refine ⟨declaration.target, mem_flatten.mpr ⟨module, inTable, ?_⟩, isMatch⟩
    rw [declared.targets module inTable]
    exact List.mem_map_of_mem isDeclared

/-- The libraries of a process: the paths that are asked for, each once and where it first occurs,
with the flag of that declaration and below the directory of its module. -/
structure Selected (files : FileSystem) (exe : String) (modules : Modules)
    (libraries : List ModuleLibrary) : Prop where
  distinct : (libraries.map ModuleLibrary.path).Nodup
  order : libraries.map ModuleLibrary.path =
    ((candidates files exe modules).map ModuleLibrary.path).eraseDups
  first : ∀ library ∈ libraries, (candidates files exe modules).find?
    (fun other => decide (other.path = library.path)) = some library
  inside : ∀ library ∈ libraries, ∃ module ∈ modules, ∃ declaration ∈ module.declarations,
    declaration.target.matches exe = true ∧ library.companion = declaration.companion ∧
      resolved files (directory module) declaration.library = some library.path ∧
        StrictlyInside files (directory module) library.path

theorem selected_keepFirst (modules : Modules) :
    Selected files exe modules
      (Keyed.keepFirst ModuleLibrary.path (candidates files exe modules)) where
  distinct := Keyed.nodup_keepFirst _
  order := Keyed.map_keepFirst _
  first _ member := Keyed.find?_of_mem_keepFirst member
  inside library member := by
    have asked := List.mem_of_find?_eq_some (Keyed.find?_of_mem_keepFirst member)
    rcases mem_candidates.mp asked with
      ⟨module, inTable, declaration, isDeclared, isMatch, found, companion⟩
    exact ⟨module, inTable, declaration, isDeclared, isMatch, companion, found,
      strictlyInside_of_resolved files found⟩

/-- The libraries agree with the list by which processes are seized. -/
theorem libraries_agree (files : FileSystem) (exe : String) {modules : Modules}
    (declared : Modules.Declared modules) :
    (librariesFor modules exe).wp files.machine
      (fun libraries _ => Selected files exe modules libraries ∧
        («matches» (flatten modules) exe = false → libraries = [])) () ∧
    («matches» (flatten modules) exe = true ↔ ∃ module ∈ modules,
      ∃ declaration ∈ module.declarations, declaration.target.matches exe = true) := by
  refine ⟨?_, matches_flatten_iff declared⟩
  apply Prog.wp_mono (wp_librariesFor files exe modules)
  rintro libraries ⟨⟩ rfl
  refine ⟨selected_keepFirst modules, ?_⟩
  intro unmatched
  rw [List.eq_nil_iff_forall_not_mem]
  intro library member
  rcases (selected_keepFirst modules).inside library member with
    ⟨module, inTable, declaration, isDeclared, isMatch, _⟩
  have isMatched := (matches_flatten_iff declared).mpr
    ⟨module, inTable, declaration, isDeclared, isMatch⟩
  rw [unmatched] at isMatched
  cases isMatched

/-- A table of two modules that ask for the same library, the first with its companion; the second
asks for another one, too. -/
def tableOfTwo : Modules :=
  [{ id := "m", targets := [⟨false, "/bin/t"⟩],
     declarations := [⟨⟨false, "/bin/t"⟩, true, "lib.so"⟩] },
   { id := "n", targets := [⟨true, "t"⟩, ⟨false, "/bin/t"⟩],
     declarations := [⟨⟨true, "t"⟩, false, "lib.so"⟩, ⟨⟨false, "/bin/t"⟩, false, "more.so"⟩] }]

/-- The directory of the second module is a link to that of the first. -/
def filesOfTwo : FileSystem where
  canonicalize path :=
    if path = "/data/adb/modules/m" ∨ path = "/data/adb/modules/n" then
      some "/data/adb/modules/m"
    else if path = "/data/adb/modules/m/lib.so" ∨ path = "/data/adb/modules/n/lib.so" then
      some "/data/adb/modules/m/lib.so"
    else if path = "/data/adb/modules/n/more.so" then
      some "/data/adb/modules/m/more.so"
    else none
  canonical path target found := by
    let directory := ["data".toList, "adb".toList, "modules".toList, "m".toList]
    split at found
    · cases found
      exact ⟨directory, by simp [directory, CanonicalName], rfl⟩
    split at found
    · cases found
      exact ⟨directory ++ ["lib.so".toList], by simp [directory, CanonicalName], rfl⟩
    split at found
    · cases found
      exact ⟨directory ++ ["more.so".toList], by simp [directory, CanonicalName], rfl⟩
    · cases found

example : Keyed.keepFirst ModuleLibrary.path (candidates filesOfTwo "/bin/t" tableOfTwo) =
    [⟨"/data/adb/modules/m/lib.so", true⟩, ⟨"/data/adb/modules/m/more.so", false⟩] := by
  decide +kernel

theorem libraries_agree_two :
    (librariesFor tableOfTwo "/bin/t").wp filesOfTwo.machine
      (fun libraries _ => Selected filesOfTwo "/bin/t" tableOfTwo libraries ∧
        («matches» (flatten tableOfTwo) "/bin/t" = false → libraries = [])) () ∧
    («matches» (flatten tableOfTwo) "/bin/t" = true ↔ ∃ module ∈ tableOfTwo,
      ∃ declaration ∈ module.declarations, declaration.target.matches "/bin/t" = true) := by
  have declared : Modules.Declared tableOfTwo := by
    constructor
    · rw [tableOfTwo, List.pairwise_pair]
      decide
    · intro module member
      rcases List.mem_pair.mp member with rfl | rfl
      · rfl
      · rfl
  exact libraries_agree filesOfTwo "/bin/t" declared

end Selecting

end Targets

end Znn.Injector
