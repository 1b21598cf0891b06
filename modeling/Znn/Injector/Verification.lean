import Znn.Bytes.Utf8
import Znn.Lists.Sorting
import Znn.Plan.Encode

/-!
# The verification of the module

Before it does anything `main` has the files of the module verified: nine by their names, and
whatever is found below `webroot`. The file system lists a directory in any order; the verifier
is always given the same entries in the same order, one for every regular file, and none is left
out that cannot be read.
-/

namespace Znn.Injector

namespace Machikado

open Bytes Sorting

def MODULE_ID : String := "zygisknextsu"

def ORG_PUBLIC_KEY : List UInt8 :=
  [123, 192, 97, 178, 44, 86, 95, 77, 138, 95, 46, 239, 113, 227, 151, 200, 0, 120, 148, 124, 95,
    104, 121, 88, 173, 152, 219, 116, 71, 200, 239, 190]

def SIGNED_FILES : List String :=
  ["bin/injector", "emulated-soft-reboot.sh", "lib/libloader.so", "lib64/libloader.so", "mazoku",
    "module.prop.orig", "post-fs-data.sh", "late-load.sh", "sepolicy.rule"]

structure FileEntry where
  relativePath : String
  content : List UInt8
deriving DecidableEq, Repr

/-- What reading a file gives: its bytes, or the text of the error. -/
abbrev Contents : Type := Except String (List UInt8)

/-- A directory as it is listed, with what is found behind each name: a file, a directory,
something else, or a type that cannot be told. -/
inductive Listing where
  | done
  | failed (error : String)
  | file (name : List UInt8) (contents : Contents) (rest : Listing)
  | directory (name : List UInt8) (inside rest : Listing)
  | other (name : List UInt8) (rest : Listing)
  | unknown (name : List UInt8) (error : String) (rest : Listing)

def loadEntry (contents : Contents) (relativePath : String) : Except String FileEntry :=
  contents.map fun content => { relativePath := relativePath, content := content }

/-- `format!("{prefix}/{}", child.file_name().to_string_lossy())`. -/
def childPath (base : String) (name : List UInt8) : String :=
  base ++ "/" ++ lossy name

/-- A child, and what the body of the loop of `load_webroot` comes to for it. -/
abbrev Child : Type := List UInt8 × Except String (List FileEntry)

/-- The loop of `load_webroot`. -/
def pushChildren : List Child → Except String (List FileEntry)
  | [] => .ok []
  | child :: rest => do
      let entries ← child.2
      return entries ++ (← pushChildren rest)

/-- The children of a directory. The bodies of the loop read files and do nothing else, so that
they stand here before their sort. -/
def Listing.children (base : String) : Listing → Except String (List Child)
  | .done => return []
  | .failed error => .error error
  | .file name contents rest => do
      let entry := loadEntry contents (childPath base name)
      return (name, entry.map fun entry => [entry]) :: (← rest.children base)
  | .directory name inside rest => do
      let entries := do pushChildren (sortByKey Prod.fst (← inside.children (childPath base name)))
      return (name, entries) :: (← rest.children base)
  | .other name rest => return (name, .ok []) :: (← rest.children base)
  | .unknown name error rest => return (name, .error error) :: (← rest.children base)

def loadWebroot (listing : Listing) (base : String) : Except String (List FileEntry) := do
  pushChildren (sortByKey Prod.fst (← listing.children base))

/-- The directory of the module: what reading a path in it gives, and what is listed below
`webroot`. -/
structure ModuleDir where
  read : String → Contents
  webroot : Listing

/-- `machikado_rs::verify`. -/
abbrev Verifier : Type :=
  List UInt8 → List UInt8 → List FileEntry → String → List UInt8 → Bool × Option String

def verifyModule (verify : Verifier) (moduleDir : ModuleDir) : Except String Unit := do
  let signed ← SIGNED_FILES.mapM fun path => loadEntry (moduleDir.read path) path
  let webroot ← loadWebroot moduleDir.webroot "webroot"
  let entries := sortByKey (fun entry => asBytes entry.relativePath) (signed ++ webroot)
  let machikado ← moduleDir.read "machikado"
  let mazoku ← moduleDir.read "mazoku"
  let (ok, error) := verify machikado mazoku entries MODULE_ID ORG_PUBLIC_KEY
  if ok then
    return ()
  else
    .error (error.getD "signature verification failed")

namespace Listing

/-- The regular files, wherever in the tree they are. -/
def files (base : String) : Listing → List (String × Contents)
  | .done | .failed _ => []
  | .file name contents rest => (childPath base name, contents) :: rest.files base
  | .directory name inside rest => inside.files (childPath base name) ++ rest.files base
  | .other _ rest | .unknown _ _ rest => rest.files base

/-- Every directory can be listed, every type told and every regular file read. -/
def Whole : Listing → Prop
  | .done => True
  | .failed _ => False
  | .file _ contents rest => (∃ content, contents = .ok content) ∧ rest.Whole
  | .directory _ inside rest => inside.Whole ∧ rest.Whole
  | .other _ rest => rest.Whole
  | .unknown _ _ _ => False

def names : Listing → List (List UInt8)
  | .done | .failed _ => []
  | .file name _ rest | .directory name _ rest | .other name rest | .unknown name _ rest =>
      name :: rest.names

/-- No directory has a name twice. -/
def Distinct : Listing → Prop
  | .done | .failed _ => True
  | .directory name inside rest => name ∉ rest.names ∧ inside.Distinct ∧ rest.Distinct
  | .file name _ rest | .other name rest | .unknown name _ rest =>
      name ∉ rest.names ∧ rest.Distinct

end Listing

/-- A child by itself. -/
inductive Head where
  | file (name : List UInt8) (contents : Contents)
  | directory (name : List UInt8) (inside : Listing)
  | other (name : List UInt8)
  | unknown (name : List UInt8) (error : String)

namespace Head

def name : Head → List UInt8
  | .file name _ | .directory name _ | .other name | .unknown name _ => name

def Distinct : Head → Prop
  | .directory _ inside => inside.Distinct
  | .file _ _ | .other _ | .unknown _ _ => True

def child (base : String) : Head → Child
  | .file name contents =>
      (name, (loadEntry contents (childPath base name)).map fun entry => [entry])
  | .directory name inside => (name, loadWebroot inside (childPath base name))
  | .other name => (name, .ok [])
  | .unknown name error => (name, .error error)

end Head

namespace Listing

def push : Head → Listing → Listing
  | .file name contents, rest => .file name contents rest
  | .directory name inside, rest => .directory name inside rest
  | .other name, rest => .other name rest
  | .unknown name error, rest => .unknown name error rest

/-- The same directory, listed in any order; and so are the directories in it. -/
inductive Same : Listing → Listing → Prop
  | refl (listing : Listing) : Same listing listing
  | trans {first second third : Listing} (earlier : Same first second)
      (later : Same second third) : Same first third
  | child (head : Head) {rest rest' : Listing} (same : Same rest rest') :
      Same (push head rest) (push head rest')
  | swap (first second : Head) (rest : Listing) :
      Same (push first (push second rest)) (push second (push first rest))
  | inside (name : List UInt8) {listing listing' : Listing} (same : Same listing listing')
      (rest : Listing) : Same (.directory name listing rest) (.directory name listing' rest)

end Listing

section Orders

variable {listing listing' rest : Listing} {head : Head} {base : String}

namespace Listing

theorem names_push : (push head rest).names = head.name :: rest.names := by
  cases head <;> rfl

theorem distinct_push : (push head rest).Distinct ↔
    head.name ∉ rest.names ∧ head.Distinct ∧ rest.Distinct := by
  cases head <;> simp [push, Distinct, Head.Distinct, Head.name]

theorem children_push : (push head rest).children base =
    (rest.children base).map fun children => head.child base :: children := by
  cases head <;>
    simp only [push, children, Head.child, loadWebroot, bind, Except.bind, Except.map, pure,
      Except.pure]

theorem Distinct.nodup (distinct : listing.Distinct) : listing.names.Nodup := by
  induction listing with
  | done | failed => exact .nil
  | file name contents rest ih => exact List.nodup_cons.mpr ⟨distinct.1, ih distinct.2⟩
  | directory name inside rest _ ih => exact List.nodup_cons.mpr ⟨distinct.1, ih distinct.2.2⟩
  | other name rest ih => exact List.nodup_cons.mpr ⟨distinct.1, ih distinct.2⟩
  | unknown name error rest ih => exact List.nodup_cons.mpr ⟨distinct.1, ih distinct.2⟩

/-- The names of the children are those of the listing. -/
theorem names_of_children {children : List Child} (loaded : listing.children base = .ok children) :
    children.map Prod.fst = listing.names := by
  induction listing generalizing children with
  | done =>
      cases loaded
      rfl
  | failed error => cases loaded
  | file name _ rest ih | directory name _ rest _ ih | other name rest ih
  | unknown name _ rest ih =>
      cases later : rest.children base with
      | error error =>
          simp only [Listing.children, later, bind, Except.bind] at loaded
          cases loaded
      | ok others =>
          simp only [Listing.children, later, bind, Except.bind, pure, Except.pure,
            Except.ok.injEq] at loaded
          subst loaded
          exact congrArg (List.cons name) (ih later)

end Listing

/-- The same children in some order, or the same error. -/
def Alike : Except String (List Child) → Except String (List Child) → Prop
  | .ok children, .ok children' => children.Perm children'
  | .error error, .error error' => error = error'
  | _, _ => False

theorem Alike.refl (children : Except String (List Child)) : Alike children children := by
  cases children with
  | ok children => exact List.Perm.refl _
  | error error => rfl

theorem Alike.trans {first second third : Except String (List Child)} (earlier : Alike first second)
    (later : Alike second third) : Alike first third := by
  cases first <;> cases second <;> cases third <;>
    first
    | exact List.Perm.trans earlier later
    | exact Eq.trans earlier later
    | exact earlier.elim
    | exact later.elim

theorem Alike.cons {first second : Except String (List Child)} (alike : Alike first second)
    (child : Child) : Alike (first.map (child :: ·)) (second.map (child :: ·)) := by
  cases first <;> cases second <;>
    first
    | exact List.Perm.cons child alike
    | exact alike

/-- The children are loaded in the order of their names. -/
theorem loadWebroot_eq (alike : Alike (listing.children base) (listing'.children base))
    (distinct : listing.Distinct) : loadWebroot listing base = loadWebroot listing' base := by
  unfold loadWebroot
  cases loaded : listing.children base with
  | error error =>
      cases loaded' : listing'.children base with
      | error error' =>
          rw [loaded, loaded'] at alike
          exact congrArg Except.error alike
      | ok children' =>
          rw [loaded, loaded'] at alike
          exact alike.elim
  | ok children =>
      cases loaded' : listing'.children base with
      | error error' =>
          rw [loaded, loaded'] at alike
          exact alike.elim
      | ok children' =>
          rw [loaded, loaded'] at alike
          have nodup : (children.map Prod.fst).Nodup := by
            rw [Listing.names_of_children loaded]
            exact distinct.nodup
          exact congrArg pushChildren (sortByKey_eq_of_perm nodup alike)

/-- Listed in another order, a directory has the same children. -/
theorem Listing.Same.alike (same : listing.Same listing') (distinct : listing.Distinct) :
    listing'.Distinct ∧ listing'.names.Perm listing.names ∧
      ∀ base, Alike (listing.children base) (listing'.children base) := by
  induction same with
  | refl listing => exact ⟨distinct, .refl _, fun base => .refl _⟩
  | trans earlier later ihEarlier ihLater =>
      rcases ihEarlier distinct with ⟨distinct, names, alike⟩
      rcases ihLater distinct with ⟨distinct, names', alike'⟩
      exact ⟨distinct, names'.trans names, fun base => (alike base).trans (alike' base)⟩
  | child head same ih =>
      rw [Listing.distinct_push] at distinct
      rcases distinct with ⟨new, isHead, distinct⟩
      rcases ih distinct with ⟨distinct, names, alike⟩
      rw [Listing.distinct_push, Listing.names_push, Listing.names_push]
      refine ⟨⟨fun known => new (names.mem_iff.mp known), isHead, distinct⟩, names.cons _, ?_⟩
      intro base
      rw [Listing.children_push, Listing.children_push]
      exact (alike base).cons _
  | swap first second rest =>
      simp only [Listing.distinct_push, Listing.names_push, List.mem_cons, not_or] at distinct ⊢
      rcases distinct with ⟨⟨apart, newFirst⟩, isFirst, newSecond, isSecond, distinct⟩
      refine ⟨⟨⟨Ne.symm apart, newSecond⟩, isSecond, newFirst, isFirst, distinct⟩, .swap .., ?_⟩
      intro base
      simp only [Listing.children_push]
      cases rest.children base with
      | ok children => exact .swap ..
      | error error => rfl
  | inside name same rest ih =>
      rcases distinct with ⟨new, isInside, distinct⟩
      rcases ih isInside with ⟨isInside', _, alike⟩
      refine ⟨⟨new, isInside', distinct⟩, .refl _, fun base => ?_⟩
      have loads := loadWebroot_eq (alike (childPath base name)) isInside
      have children (listing : Listing) : (Listing.directory name listing rest).children base =
          (rest.children base).map ((name, loadWebroot listing (childPath base name)) :: ·) :=
        @Listing.children_push rest (.directory name listing) base
      rw [children, children, loads]
      exact .refl _

end Orders

section Coverage

variable {listing : Listing} {base : String} {children : List Child}

def FileEntry.pair (entry : FileEntry) : String × Contents :=
  (entry.relativePath, .ok entry.content)

def entriesOf (child : Child) : List FileEntry :=
  child.2.toOption.getD []

/-- Nothing has failed. -/
def Loaded (children : List Child) : Prop :=
  ∀ child ∈ children, ∃ entries, child.2 = .ok entries

theorem pushChildren_loaded (loaded : Loaded children) :
    pushChildren children = .ok (children.flatMap entriesOf) := by
  induction children with
  | nil => rfl
  | cons child rest ih =>
      rcases loaded child List.mem_cons_self with ⟨entries, isOk⟩
      have later := ih fun child member => loaded child (List.mem_cons_of_mem _ member)
      rw [pushChildren, isOk, later, List.flatMap_cons, entriesOf, isOk]
      rfl

theorem pushChildren_failed (failed : ¬Loaded children) :
    ∃ error, pushChildren children = .error error := by
  induction children with
  | nil => exact absurd (fun _ => nofun) failed
  | cons child rest ih =>
      rw [pushChildren]
      cases isOk : child.2 with
      | error error => exact ⟨error, rfl⟩
      | ok entries =>
          have later : ¬Loaded rest := by
            intro loaded
            apply failed
            intro other member
            rcases List.mem_cons.mp member with rfl | member
            · exact ⟨entries, isOk⟩
            · exact loaded other member
          rcases ih later with ⟨error, isError⟩
          exact ⟨error, by rw [isError]; rfl⟩

/-- The entries of a directory: one for each regular file of a tree that can be read as a whole,
and an error for any other. -/
structure Covers (loaded : Except String (List FileEntry)) (listing : Listing) (base : String) :
    Prop where
  whole : listing.Whole →
    ∃ entries, loaded = .ok entries ∧ (entries.map FileEntry.pair).Perm (listing.files base)
  broken : ¬listing.Whole → ∃ error, loaded = .error error

/-- The same of the children, before they are sorted. -/
structure ChildrenCover (children : Except String (List Child)) (listing : Listing)
    (base : String) : Prop where
  whole : listing.Whole → ∃ loaded, children = .ok loaded ∧ Loaded loaded ∧
    ((loaded.flatMap entriesOf).map FileEntry.pair).Perm (listing.files base)
  broken : ¬listing.Whole → ∀ loaded, children = .ok loaded → ¬Loaded loaded

theorem ChildrenCover.covers (cover : ChildrenCover (listing.children base) listing base) :
    Covers (loadWebroot listing base) listing base where
  whole isWhole := by
    rcases cover.whole isWhole with ⟨children, isOk, loaded, perm⟩
    have sorted : (sortByKey Prod.fst children).Perm children := sortByKey_perm
    have loadedSorted : Loaded (sortByKey Prod.fst children) :=
      fun child member => loaded child (sorted.mem_iff.mp member)
    refine ⟨(sortByKey Prod.fst children).flatMap entriesOf, ?_, ?_⟩
    · rw [loadWebroot, isOk]
      exact pushChildren_loaded loadedSorted
    · exact ((sorted.flatMap_right entriesOf).map _).trans perm
  broken isBroken := by
    rw [loadWebroot]
    cases isOk : listing.children base with
    | error error => exact ⟨error, rfl⟩
    | ok children =>
        apply pushChildren_failed
        intro loadedSorted
        apply cover.broken isBroken children isOk
        exact fun child member => loadedSorted child (sortByKey_perm.mem_iff.mpr member)

/-- A child before the others. -/
theorem ChildrenCover.push {head : Head} {rest : Listing}
    {files : List (String × Contents)} {whole : Prop}
    (cover : ChildrenCover (rest.children base) rest base)
    (isFiles : (Listing.push head rest).files base = files ++ rest.files base)
    (isWhole : (Listing.push head rest).Whole ↔ whole ∧ rest.Whole)
    (covers : whole → ∃ entries, (head.child base).2 = .ok entries ∧
      (entries.map FileEntry.pair).Perm files)
    (fails : ¬whole → ∃ error, (head.child base).2 = .error error) :
    ChildrenCover ((Listing.push head rest).children base) (Listing.push head rest) base where
  whole both := by
    rw [isWhole] at both
    rcases covers both.1 with ⟨entries, isOk, perm⟩
    rcases cover.whole both.2 with ⟨loaded, isLoaded, each, permRest⟩
    refine ⟨head.child base :: loaded, ?_, ?_, ?_⟩
    · rw [Listing.children_push, isLoaded]
      rfl
    · intro child member
      rcases List.mem_cons.mp member with rfl | member
      · exact ⟨entries, isOk⟩
      · exact each child member
    · rw [isFiles, List.flatMap_cons, List.map_append, entriesOf, isOk]
      exact perm.append permRest
  broken isBroken := by
    rw [isWhole, not_and_or] at isBroken
    intro loaded isLoaded each
    rw [Listing.children_push] at isLoaded
    cases isRest : rest.children base with
    | error error =>
        rw [isRest] at isLoaded
        cases isLoaded
    | ok children =>
        rw [isRest] at isLoaded
        cases isLoaded
        rcases isBroken with brokenHead | brokenRest
        · rcases fails brokenHead with ⟨error, isError⟩
          rcases each _ List.mem_cons_self with ⟨entries, isOk⟩
          cases isError.symm.trans isOk
        · apply cover.broken brokenRest children isRest
          exact fun child member => each child (List.mem_cons_of_mem _ member)

theorem childrenCover (listing : Listing) (base : String) :
    ChildrenCover (listing.children base) listing base := by
  induction listing generalizing base with
  | done => exact ⟨fun _ => ⟨[], rfl, nofun, .refl _⟩, fun broken => absurd trivial broken⟩
  | failed error => exact ⟨False.elim, nofun⟩
  | file name contents rest ih =>
      apply @ChildrenCover.push base (.file name contents) rest [(childPath base name, contents)]
        (∃ content, contents = .ok content) (ih base) rfl Iff.rfl
      · rintro ⟨content, rfl⟩
        exact ⟨_, rfl, .refl _⟩
      · intro unread
        cases contents with
        | ok content => exact absurd ⟨content, rfl⟩ unread
        | error error => exact ⟨error, rfl⟩
  | directory name inside rest ihInside ih =>
      have covers := (ihInside (childPath base name)).covers
      exact @ChildrenCover.push base (.directory name inside) rest
        (inside.files (childPath base name)) inside.Whole (ih base) rfl Iff.rfl covers.whole
        covers.broken
  | other name rest ih =>
      apply @ChildrenCover.push base (.other name) rest [] True (ih base) rfl
        (iff_of_eq (true_and _)).symm
      · exact fun _ => ⟨[], rfl, .refl _⟩
      · exact fun broken => absurd trivial broken
  | unknown name error rest ih =>
      apply @ChildrenCover.push base (.unknown name error) rest [] False (ih base) rfl
        (iff_of_eq (false_and _)).symm
      · exact False.elim
      · exact fun _ => ⟨error, rfl⟩

/-- The entries of `webroot` are its regular files. -/
theorem covers_loadWebroot (listing : Listing) (base : String) :
    Covers (loadWebroot listing base) listing base :=
  (childrenCover listing base).covers

end Coverage

section Module

namespace ModuleDir

/-- The files that the verifier is to see. -/
def regularFiles (moduleDir : ModuleDir) : List (String × Contents) :=
  (SIGNED_FILES.map fun path => (path, moduleDir.read path)) ++ moduleDir.webroot.files "webroot"

def Readable (moduleDir : ModuleDir) : Prop :=
  (∀ path ∈ SIGNED_FILES, ∃ content, moduleDir.read path = .ok content) ∧
    moduleDir.webroot.Whole ∧ ∃ content, moduleDir.read "machikado" = .ok content

end ModuleDir

variable {read : String → Contents} {paths : List String} {moduleDir : ModuleDir}
  {verify : Verifier}

theorem loadEntries (readable : ∀ path ∈ paths, ∃ content, read path = .ok content) :
    ∃ entries, (paths.mapM fun path => loadEntry (read path) path) = .ok entries ∧
      entries.map FileEntry.pair = paths.map fun path => (path, read path) := by
  induction paths with
  | nil => exact ⟨[], rfl, rfl⟩
  | cons path rest ih =>
      rcases readable path List.mem_cons_self with ⟨content, isOk⟩
      rcases ih fun path member => readable path (List.mem_cons_of_mem _ member) with
        ⟨entries, loaded, pairs⟩
      refine ⟨{ relativePath := path, content := content } :: entries, ?_, ?_⟩
      · rw [List.mapM_cons, loaded, isOk]
        rfl
      · rw [List.map_cons, List.map_cons, pairs, isOk]
        rfl

theorem loadEntries_failed (unread : ∃ path ∈ paths, ∃ error, read path = .error error) :
    ∃ error, (paths.mapM fun path => loadEntry (read path) path) = .error error := by
  induction paths with
  | nil =>
      rcases unread with ⟨path, member, _⟩
      cases member
  | cons path rest ih =>
      rw [List.mapM_cons]
      cases isRead : read path with
      | error error => exact ⟨error, rfl⟩
      | ok content =>
          rcases unread with ⟨other, member, error, isError⟩
          rcases List.mem_cons.mp member with rfl | member
          · cases isRead.symm.trans isError
          · rcases ih ⟨other, member, error, isError⟩ with ⟨error, failed⟩
            exact ⟨error, by rw [failed]; rfl⟩

/-- What the verifier is given when everything can be read. -/
theorem verifyModule_readable (readable : moduleDir.Readable) :
    ∃ entries machikado mazoku, moduleDir.read "machikado" = .ok machikado ∧
      moduleDir.read "mazoku" = .ok mazoku ∧
      (entries.map FileEntry.pair).Perm moduleDir.regularFiles ∧
      (entries.Pairwise fun one other => asBytes one.relativePath ≤ asBytes other.relativePath) ∧
      (verifyModule verify moduleDir = .ok () ↔
        (verify machikado mazoku entries MODULE_ID ORG_PUBLIC_KEY).1 = true) := by
  rcases readable with ⟨signed, isWhole, machikado, isMachikado⟩
  rcases loadEntries signed with ⟨signedEntries, loaded, pairs⟩
  rcases (covers_loadWebroot moduleDir.webroot "webroot").whole isWhole with
    ⟨webEntries, loadedWeb, perm⟩
  rcases signed "mazoku" (by decide) with ⟨mazoku, isMazoku⟩
  refine ⟨sortByKey (fun entry => asBytes entry.relativePath) (signedEntries ++ webEntries),
    machikado, mazoku, isMachikado, isMazoku, ?_, pairwise_sortByKey, ?_⟩
  · apply (sortByKey_perm.map _).trans
    rw [List.map_append, pairs]
    exact perm.append_left _
  · rw [verifyModule, loaded, loadedWeb, isMachikado, isMazoku]
    simp only [bind, Except.bind]
    split
    case isTrue ok => exact iff_of_true rfl ok
    case isFalse refused => exact iff_of_false nofun refused

theorem verifyModule_unreadable (unreadable : ¬moduleDir.Readable) :
    ∃ error, verifyModule verify moduleDir = .error error := by
  unfold verifyModule
  simp only [bind, Except.bind]
  by_cases signed : ∀ path ∈ SIGNED_FILES, ∃ content, moduleDir.read path = .ok content
  · rcases loadEntries signed with ⟨signedEntries, loaded, _⟩
    rw [loaded]
    by_cases isWhole : moduleDir.webroot.Whole
    · rcases (covers_loadWebroot moduleDir.webroot "webroot").whole isWhole with ⟨_, loadedWeb, _⟩
      cases isMachikado : moduleDir.read "machikado" with
      | ok content => exact absurd ⟨signed, isWhole, content, isMachikado⟩ unreadable
      | error error => exact ⟨error, by rw [loadedWeb]⟩
    · rcases (covers_loadWebroot moduleDir.webroot "webroot").broken isWhole with ⟨error, failed⟩
      exact ⟨error, by rw [failed]⟩
  · have unread : ∃ path ∈ SIGNED_FILES, ∃ error, moduleDir.read path = .error error := by
      simp only [not_forall] at signed
      rcases signed with ⟨path, member, unread⟩
      cases isRead : moduleDir.read path with
      | ok content => exact absurd ⟨content, isRead⟩ unread
      | error error => exact ⟨path, member, error, isRead⟩
    rcases loadEntries_failed unread with ⟨error, failed⟩
    exact ⟨error, by rw [failed]⟩

/-- In whatever order its directories are listed, the module is verified alike. With a file or a
directory that cannot be read it is refused; and where everything can be read the verifier decides,
and is given every regular file once, sorted by its path. -/
theorem module_verified (distinct : moduleDir.webroot.Distinct) :
    (∀ webroot, moduleDir.webroot.Same webroot →
      verifyModule verify { moduleDir with webroot := webroot } = verifyModule verify moduleDir) ∧
    (¬moduleDir.Readable → ∃ error, verifyModule verify moduleDir = .error error) ∧
    (moduleDir.Readable → ∃ entries machikado mazoku,
      moduleDir.read "machikado" = .ok machikado ∧ moduleDir.read "mazoku" = .ok mazoku ∧
      (entries.map FileEntry.pair).Perm moduleDir.regularFiles ∧
      (entries.Pairwise fun one other =>
        asBytes one.relativePath ≤ asBytes other.relativePath) ∧
      (verifyModule verify moduleDir = .ok () ↔
        (verify machikado mazoku entries MODULE_ID ORG_PUBLIC_KEY).1 = true)) := by
  refine ⟨fun webroot same => ?_, verifyModule_unreadable, verifyModule_readable⟩
  have loads := loadWebroot_eq ((same.alike distinct).2.2 "webroot") distinct
  unfold verifyModule
  rw [loads]

/-- A page, a directory of scripts and a link, which is not a regular file. -/
def listingA : Listing :=
  .file (asBytes "index.html") (.ok [60])
    (.directory (asBytes "js") (.file (asBytes "app.js") (.ok [59]) .done)
      (.other (asBytes "link") .done))

/-- The same with the scripts first. -/
def listingB : Listing :=
  .directory (asBytes "js") (.file (asBytes "app.js") (.ok [59]) .done)
    (.file (asBytes "index.html") (.ok [60]) (.other (asBytes "link") .done))

theorem module_verified_swapped :
    verifyModule (fun _ _ entries _ _ => (entries.length = 11, none))
      { read := fun _ => .ok [], webroot := listingB } = .ok () := by
  let moduleDir : ModuleDir := { read := fun _ => .ok [], webroot := listingA }
  have distinct : listingA.Distinct := by
    refine ⟨by decide +kernel, by decide +kernel, ⟨?_, trivial⟩, by decide +kernel, trivial⟩
    decide +kernel
  have readable : moduleDir.Readable :=
    ⟨fun _ _ => ⟨[], rfl⟩, ⟨⟨_, rfl⟩, ⟨⟨_, rfl⟩, trivial⟩, trivial⟩, [], rfl⟩
  have same : listingA.Same listingB :=
    .swap (.file (asBytes "index.html") (.ok [60]))
      (.directory (asBytes "js") (.file (asBytes "app.js") (.ok [59]) .done))
      (.other (asBytes "link") .done)
  have verified := @module_verified moduleDir (fun _ _ entries _ _ => (entries.length = 11, none))
    distinct
  rcases verified.2.2 readable with ⟨entries, _, _, _, _, perm, _, decides⟩
  have length : entries.length = 11 := by
    rw [← List.length_map FileEntry.pair, perm.length_eq]
    rfl
  rw [verified.1 listingB same]
  exact decides.mpr (decide_eq_true length)

end Module

end Machikado

end Znn.Injector
