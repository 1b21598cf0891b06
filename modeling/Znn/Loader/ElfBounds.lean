import Znn.Loader.ElfImage

/-!
# The bounds of parsing

Headers, tables and sections lie inside of an accepted file, so what can run out of it are the
strings. Whether they do is a condition on the file: on the names that are compared with
`.gnu_debugdata`, on the names of the symbols that are copied, and on the image that is unpacked,
whose header has to reach to its section count.
-/

namespace Znn.Loader

open Bytes Usize

/-- The name of the symbol, if it is copied, ends in the image. -/
def NameEnds (image : List UInt8) (strSh : Shdr) (s : Sym) : Prop :=
  s.shndx ≠ SHN_UNDEF → s.name ≠ 0 → s.name < strSh.size →
    0 ∈ image.drop (strSh.offset + s.name)

section Contents

variable [Usize]

/-- The section headers of an image that has all of them. -/
def sections (image : List UInt8) : List Shdr :=
  (List.range ((Ehdr.shnum (.of image)).getD 0)).map fun index =>
    Shdr.of ((View.of image).at_ ((Ehdr.shoff (.of image)).getD 0 + index * sizeofShdr))

/-- The symbols of a section. -/
def symbolsOf (image : List UInt8) (sh : Shdr) : List Sym :=
  (List.range (sh.size / sizeofSym)).map fun index =>
    Sym.of ((View.of image).at_ (sh.offset + index * sizeofSym))

/-- The names of a symbol table that is parsed end in the image. -/
def TableEnds (image : List UInt8) (sh : Shdr) : Prop :=
  ∀ strSh, (sections image)[sh.link]? = some strSh → sectionInFile sh image.length →
    sectionInFile strSh image.length → sh.entsize = sizeofSym →
      ∀ s ∈ symbolsOf image sh, NameEnds image strSh s

/-- The names of the symbols of all sections of the given types end in the image. -/
def SymbolNamesEnd (image : List UInt8) (types : List Nat) : Prop :=
  ∀ sh ∈ sections image, sh.type ∈ types → TableEnds image sh

/-- The section that holds the names of the sections. -/
def nameSection (file : List UInt8) : Option Shdr :=
  (Ehdr.shstrndx (.of file)).bind fun index =>
    if index = SHN_UNDEF then none
    else ((sections file)[index]?).filter fun shstr => sectionInFile shstr file.length

/-- The name of the section differs from `.gnu_debugdata`, or ends, inside of the file. -/
def NameDecided (file : List UInt8) (sh : Shdr) : Prop :=
  ∀ names, nameSection file = some names → sh.name < names.size →
    ¬file.drop (names.offset + sh.name) <+: gnuDebugdata

/-- The section is called `.gnu_debugdata`. -/
def isNamedDebugdata (file : List UInt8) (sh : Shdr) : Bool :=
  (nameSection file).any fun names =>
    decide (sh.name < names.size) &&
      (gnuDebugdata ++ [0]).isPrefixOf (file.drop (names.offset + sh.name))

/-- The image that a section unpacks to. -/
def unpacked (decompress : List UInt8 → Option (List UInt8)) (file : List UInt8) (sh : Shdr) :
    Option (List UInt8) :=
  if sh.type = SHT_PROGBITS ∧ isNamedDebugdata file sh ∧ sectionInFile sh file.length then
    ElfImage.parseGnuDebugData decompress ((file.drop sh.offset).take sh.size)
  else none

/-- The image of the last section that unpacks to one. -/
def keptDebugdata (decompress : List UInt8 → Option (List UInt8)) (file : List UInt8) :
    Option (List UInt8) :=
  ((sections file).filterMap (unpacked decompress file)).getLast?

/-- What the strings of a file, and the image that it unpacks to, have to be for parsing to stay
inside of both. -/
structure StringsEnd (decompress : List UInt8 → Option (List UInt8)) (file : List UInt8) :
    Prop where
  sectionNames : ∀ sh ∈ sections file, sh.type = SHT_PROGBITS → NameDecided file sh
  symbolNames : SymbolNamesEnd file [SHT_SYMTAB, SHT_DYNSYM]
  debugHeader : ∀ image, keptDebugdata decompress file = some image →
    38 + 3 * Usize.bytes ≤ image.length
  debugNames : ∀ image, keptDebugdata decompress file = some image →
    sectionTableInFile image = some true → SymbolNamesEnd image [SHT_SYMTAB]

/-! ## Tables that lie inside -/

variable {image file : List UInt8} {shdrs shnum : Nat} {sh strSh : Shdr}

/-- A section table that lies in the image. -/
structure Tabled (image : List UInt8) (shdrs shnum : Nat) : Prop where
  shoff_eq : Ehdr.shoff (.of image) = some shdrs
  shnum_eq : Ehdr.shnum (.of image) = some shnum
  fits : shdrs + shnum * sizeofShdr ≤ image.length

theorem tabled_of_sectionTableInFile (inFile : sectionTableInFile image = some true) :
    ∃ shdrs shnum, Tabled image shdrs shnum := by
  obtain ⟨shnum, shnum_eq, rest⟩ := Option.bind_eq_some_iff.mp inFile
  obtain ⟨shdrs, shoff_eq, decided⟩ := Option.bind_eq_some_iff.mp rest
  have bounds : shdrs ≤ image.length ∧ shnum * sizeofShdr ≤ image.length - shdrs := by
    simpa using decided
  exact ⟨shdrs, shnum, shoff_eq, shnum_eq, by omega⟩

/-- Whether a section table lies in the image is decided by a header that reaches to the section
count. -/
theorem isSome_sectionTableInFile :
    (sectionTableInFile image).isSome ↔ 38 + 3 * Usize.bytes ≤ image.length := by
  have shnum : (Ehdr.shnum (.of image)).isSome ↔ 38 + 3 * Usize.bytes ≤ image.length := by
    rw [Ehdr.shnum, View.isSome_number_of (by omega)]
    omega
  rw [← shnum]
  constructor
  · intro decided
    obtain ⟨inFile, decided⟩ := Option.isSome_iff_exists.mp decided
    obtain ⟨count, found, -⟩ := Option.bind_eq_some_iff.mp decided
    rw [found]
    rfl
  · intro found
    have shoff : (Ehdr.shoff (.of image)).isSome := by
      rw [Ehdr.shoff, View.isSome_number_of Usize.bytes_pos]
      have := shnum.mp found
      omega
    obtain ⟨count, count_eq⟩ := Option.isSome_iff_exists.mp found
    obtain ⟨start, start_eq⟩ := Option.isSome_iff_exists.mp shoff
    rw [sectionTableInFile, count_eq, Option.bind_eq_bind, Option.bind_some, start_eq]
    rfl

namespace Tabled

variable (tabled : Tabled image shdrs shnum)
include tabled

theorem sections_eq : sections image = (List.range shnum).map fun index =>
    Shdr.of ((View.of image).at_ (shdrs + index * sizeofShdr)) := by
  rw [sections, tabled.shnum_eq, tabled.shoff_eq]
  rfl

theorem readShdr_eq {index : Nat} (near : index < shnum) :
    readShdr image shdrs index = (sections image)[index]? := by
  have inside := entry_le sizeofShdr near
  have fits := tabled.fits
  have spans : ((View.of image).at_ (shdrs + index * sizeofShdr)).Spans sizeofShdr :=
    View.spans_of (by omega)
  rw [readShdr, Shdr.read_eq spans, tabled.sections_eq, List.getElem?_map,
    List.getElem?_range near]
  rfl

theorem getElem?_sections {index : Nat} (near : index < shnum) :
    ∃ sh, (sections image)[index]? = some sh := by
  rw [tabled.sections_eq, List.getElem?_map, List.getElem?_range near]
  exact ⟨_, rfl⟩

theorem length_sections : (sections image).length = shnum := by
  rw [tabled.sections_eq, List.length_map, List.length_range]

/-- A property of all sections is one of all indices. -/
theorem forall_sections {holds : Shdr → Prop} :
    (∀ index ∈ List.range shnum, ∃ sh, (sections image)[index]? = some sh ∧ holds sh) ↔
      ∀ sh ∈ sections image, holds sh := by
  constructor
  · intro each sh member
    obtain ⟨index, near, rfl⟩ := List.mem_iff_getElem.mp member
    obtain ⟨other, found, holds⟩ := each index (by
      rw [List.mem_range, ← tabled.length_sections]
      exact near)
    rw [List.getElem?_eq_getElem near] at found
    cases found
    exact holds
  · intro each index member
    rw [List.mem_range, ← tabled.length_sections] at member
    exact ⟨_, List.getElem?_eq_getElem member, each _ (List.getElem_mem member)⟩

end Tabled

/-! ## Symbol tables -/

omit [Usize] in
theorem sectionInFile_iff {size : Nat} :
    sectionInFile sh size = true ↔ sh.offset ≤ size ∧ sh.size ≤ size - sh.offset := by
  simp [sectionInFile]

theorem isSome_parseSymbol {bias : Nat} {s : Sym} (inFile : sectionInFile strSh image.length) :
    (ElfImage.parseSymbol image strSh bias s).isSome ↔ NameEnds image strSh s := by
  rw [ElfImage.parseSymbol]
  by_cases skipped : s.shndx = SHN_UNDEF ∨ s.name = 0 ∨ strSh.size ≤ s.name
  · rw [if_pos skipped]
    refine iff_of_true rfl fun defined named inTable => ?_
    omega
  · rw [if_neg skipped]
    push Not at skipped
    obtain ⟨defined, named, inTable⟩ := skipped
    have ends : NameEnds image strSh s ↔ 0 ∈ image.drop (strSh.offset + s.name) :=
      ⟨fun ends => ends defined named inTable, fun ends _ _ _ => ends⟩
    rw [ends]
    have inside := sectionInFile_iff.mp inFile
    -- A name that is looked at begins in the image: its section lies there.
    cases text : image.drop (strSh.offset + s.name) with
    | nil =>
        rw [List.drop_eq_nil_iff] at text
        omega
    | cons byte rest =>
        by_cases zero : byte = 0
        · simp [zero]
        · rw [← isSome_cString]
          cases name : cString (byte :: rest) <;> simp [zero, name]

theorem readSym_eq {index : Nat} (inFile : sectionInFile sh image.length)
    (near : index < sh.size / sizeofSym) :
    readSym image sh.offset index =
      some (Sym.of ((View.of image).at_ (sh.offset + index * sizeofSym))) := by
  have inside := sectionInFile_iff.mp inFile
  have entry := entry_le sizeofSym near
  have whole := Nat.div_mul_le_self sh.size sizeofSym
  exact Sym.read_eq (View.spans_of (by omega))

theorem isSome_parseSymbols {bias : Nat} {symbols : List SymbolInfo}
    (inFile : sectionInFile sh image.length) (strInFile : sectionInFile strSh image.length) :
    (ElfImage.parseSymbols image strSh sh.offset (sh.size / sizeofSym) bias symbols).isSome ↔
      ∀ s ∈ symbolsOf image sh, NameEnds image strSh s := by
  rw [ElfImage.parseSymbols, symbolsOf, List.forall_mem_map]
  refine isSome_foldlM (fun _ => True) (fun _ _ _ _ _ => trivial) ?_ trivial
  intro state _ index member
  rw [List.mem_range] at member
  rw [readSym_eq inFile member, ← isSome_parseSymbol strInFile]
  cases found : ElfImage.parseSymbol image strSh bias _ <;> simp [found]

theorem Tabled.isSome_parseTable (tabled : Tabled image shdrs shnum) {bias : Nat}
    {symbols : List SymbolInfo} :
    (ElfImage.parseTable image shdrs shnum bias sh symbols).isSome ↔ TableEnds image sh := by
  rw [ElfImage.parseTable]
  split
  · rename_i unlinked
    refine iff_of_true rfl fun strSh found => ?_
    rw [List.getElem?_eq_none (by rw [tabled.length_sections]; exact unlinked)] at found
    cases found
  · rename_i linked
    have near : sh.link < (sections image).length := by
      rw [tabled.length_sections]
      omega
    have found := List.getElem?_eq_getElem near
    rw [tabled.readShdr_eq (by omega), found, Option.bind_eq_bind, Option.bind_some]
    split
    · rename_i checked
      simp only [Bool.and_eq_true, beq_iff_eq] at checked
      obtain ⟨⟨inFile, strInFile⟩, entsize⟩ := checked
      rw [entsize, isSome_parseSymbols inFile strInFile]
      refine ⟨fun ends strSh same _ _ _ => ?_, fun ends => ends _ found inFile strInFile entsize⟩
      rw [found] at same
      cases same
      exact ends
    · rename_i unchecked
      refine iff_of_true rfl fun strSh same inFile strInFile entsize => ?_
      rw [found] at same
      cases same
      simp [inFile, strInFile, entsize] at unchecked

/-! ## The loop over the sections -/

/-- What the constructor has found out about a file that it has accepted. -/
structure Accepted (file : List UInt8) (shdrs shnum shstrndx : Nat) : Prop extends
    Tabled file shdrs shnum where
  shstrndx_eq : Ehdr.shstrndx (.of file) = some shstrndx

/-- The image has the file, and knows where the names of its sections are. -/
structure Maps (file : List UInt8) (elf : ElfImage) : Prop where
  file_eq : elf.file = file
  sectionNames_eq : elf.sectionNames = (nameSection file).map Shdr.offset

variable {shstrndx shstrSize bias : Nat} {elf next : ElfImage}
  {decompress : List UInt8 → Option (List UInt8)}

/-- The size that `ensureParsed` takes for the names of the sections. -/
def SizesNames (file : List UInt8) (shstrSize : Nat) : Prop :=
  ∀ names, nameSection file = some names → shstrSize = names.size

theorem isSome_isGnuDebugdata (maps : Maps file elf) (sizes : SizesNames file shstrSize) :
    (elf.isGnuDebugdata shstrSize sh).isSome ↔ NameDecided file sh := by
  rw [ElfImage.isGnuDebugdata, maps.sectionNames_eq, maps.file_eq, NameDecided]
  cases found : nameSection file with
  | none => simp
  | some names =>
      have size := sizes names found
      rw [Option.map_some]
      dsimp only
      split
      · refine iff_of_true rfl ?_
        rintro _ ⟨⟩ inside
        omega
      · rw [isSome_comparesEqual]
        refine ⟨?_, fun all => all names rfl (by omega)⟩
        rintro decided _ ⟨⟩ -
        exact decided

theorem isGnuDebugdata_eq (maps : Maps file elf) (sizes : SizesNames file shstrSize) {named : Bool}
    (found : elf.isGnuDebugdata shstrSize sh = some named) : named = isNamedDebugdata file sh := by
  rw [ElfImage.isGnuDebugdata, maps.sectionNames_eq, maps.file_eq] at found
  rw [isNamedDebugdata]
  cases section_ : nameSection file with
  | none =>
      rw [section_] at found
      cases found
      rfl
  | some names =>
      have size := sizes names section_
      rw [section_, Option.map_some] at found
      dsimp only at found
      rw [Option.any_some]
      split at found
      · rename_i outside
        cases found
        simp only [Bool.false_eq, Bool.and_eq_false_iff, decide_eq_false_iff_not]
        omega
      · rename_i inside
        rw [decide_eq_true (by omega), Bool.true_and, Bool.eq_iff_iff, List.isPrefixOf_iff_prefix,
          ← comparesEqual_eq_true, found, Option.some_inj]

/-- The pass over a section stays inside. -/
def SectionEnds (file : List UInt8) (sh : Shdr) : Prop :=
  (sh.type ∈ [SHT_SYMTAB, SHT_DYNSYM] → TableEnds file sh) ∧
    (sh.type = SHT_PROGBITS → NameDecided file sh)

theorem isSome_parseSection (tabled : Tabled file shdrs shnum) (maps : Maps file elf)
    (sizes : SizesNames file shstrSize) {index : Nat} (found : (sections file)[index]? = some sh)
    (near : index < shnum) :
    (ElfImage.parseSection decompress shdrs shnum shstrSize bias elf index).isSome ↔
      SectionEnds file sh := by
  rw [ElfImage.parseSection, maps.file_eq, tabled.readShdr_eq near, found, Option.bind_eq_bind,
    Option.bind_some, SectionEnds]
  by_cases table : sh.type = SHT_SYMTAB ∨ sh.type = SHT_DYNSYM
  · have other : sh.type ≠ SHT_PROGBITS := by
      rcases table with type | type <;> rw [type] <;> decide
    have listed : sh.type ∈ [SHT_SYMTAB, SHT_DYNSYM] := by simpa using table
    rw [if_pos table]
    have parsed : (ElfImage.parseTable file shdrs shnum bias sh elf.symbols).isSome ↔ _ :=
      tabled.isSome_parseTable
    simp only [listed, other, true_imp_iff, false_imp_iff, and_true]
    rw [← parsed]
    cases ElfImage.parseTable file shdrs shnum bias sh elf.symbols <;> simp
  · have unlisted : sh.type ∉ [SHT_SYMTAB, SHT_DYNSYM] := by simpa using table
    rw [if_neg table]
    simp only [unlisted, false_imp_iff, true_and]
    by_cases progbits : sh.type = SHT_PROGBITS
    · rw [if_pos progbits]
      simp only [progbits, true_imp_iff]
      rw [← isSome_isGnuDebugdata maps sizes]
      cases elf.isGnuDebugdata shstrSize sh with
      | none => simp
      | some named =>
          rw [Option.bind_eq_bind, Option.bind_some]
          split <;> simp
    · rw [if_neg progbits]
      simp [progbits]

/-- A pass only adds symbols and an unpacked image. -/
theorem parseSection_frame {index : Nat}
    (pass : ElfImage.parseSection decompress shdrs shnum shstrSize bias elf index = some next) :
    ∃ symbols debugdata, next = { elf with symbols, debugdata } := by
  obtain ⟨sh, -, pass⟩ := Option.bind_eq_some_iff.mp pass
  split at pass
  · obtain ⟨symbols, -, pass⟩ := Option.bind_eq_some_iff.mp pass
    cases pass
    exact ⟨_, _, rfl⟩
  · split at pass
    · obtain ⟨named, -, pass⟩ := Option.bind_eq_some_iff.mp pass
      split at pass
      · cases pass
        exact ⟨_, _, rfl⟩
      · cases pass
        exact ⟨_, _, rfl⟩
    · cases pass
      exact ⟨_, _, rfl⟩

theorem maps_parseSection (maps : Maps file elf) {index : Nat}
    (pass : ElfImage.parseSection decompress shdrs shnum shstrSize bias elf index = some next) :
    Maps file next := by
  obtain ⟨symbols, debugdata, rfl⟩ := parseSection_frame pass
  exact ⟨maps.file_eq, maps.sectionNames_eq⟩

/-- A pass over a section keeps the image that it unpacks to. -/
theorem debugdata_parseSection (tabled : Tabled file shdrs shnum) (maps : Maps file elf)
    (sizes : SizesNames file shstrSize) {index : Nat} (found : (sections file)[index]? = some sh)
    (near : index < shnum)
    (pass : ElfImage.parseSection decompress shdrs shnum shstrSize bias elf index = some next) :
    next.debugdata = (unpacked decompress file sh).or elf.debugdata := by
  rw [ElfImage.parseSection, maps.file_eq, tabled.readShdr_eq near, found, Option.bind_eq_bind,
    Option.bind_some] at pass
  rw [unpacked]
  split at pass
  · rename_i table
    have other : sh.type ≠ SHT_PROGBITS := by
      rcases table with type | type <;> rw [type] <;> decide
    obtain ⟨symbols, -, pass⟩ := Option.bind_eq_some_iff.mp pass
    cases pass
    simp [other]
  · split at pass
    · rename_i progbits
      obtain ⟨named, compared, pass⟩ := Option.bind_eq_some_iff.mp pass
      rw [isGnuDebugdata_eq maps sizes compared] at pass
      split at pass
      · rename_i checked
        rw [Bool.and_eq_true] at checked
        cases pass
        rw [if_pos ⟨progbits, checked⟩]
      · rename_i unchecked
        rw [Bool.and_eq_true] at unchecked
        cases pass
        rw [if_neg fun all => unchecked all.2, Option.none_or]
    · rename_i other
      cases pass
      simp [other]

/-- The image that is kept when the loop is over. -/
theorem debugdata_eq (tabled : Tabled file shdrs shnum) (maps : Maps file elf)
    (sizes : SizesNames file shstrSize) (fresh : elf.debugdata = none)
    (loop : (List.range shnum).foldlM
      (ElfImage.parseSection decompress shdrs shnum shstrSize bias) elf = some next) :
    next.debugdata = keptDebugdata decompress file := by
  have inTable : ∀ index ∈ List.range shnum, (sections file)[index]? =
      some (Shdr.of ((View.of file).at_ (shdrs + index * sizeofShdr))) := by
    intro index member
    rw [tabled.sections_eq, List.getElem?_map, List.getElem?_range (List.mem_range.mp member)]
    rfl
  have tracked := foldlM_tracks (Maps file) ElfImage.debugdata
    (fun kept index => (((sections file)[index]?).bind (unpacked decompress file)).or kept)
    (fun state item next held => maps_parseSection held)
    (fun state held index member next pass => by
      have found := inTable index member
      rw [debugdata_parseSection tabled held sizes found (List.mem_range.mp member) pass, found,
        Option.bind_some])
    maps loop
  rw [tracked, fresh, foldl_or, keptDebugdata, tabled.sections_eq, List.filterMap_map]
  congr 1
  apply List.filterMap_congr
  intro index member
  rw [← tabled.sections_eq, inTable index member]
  rfl

/-- The loop over the sections of the file. -/
theorem isSome_parseSections (tabled : Tabled file shdrs shnum) (maps : Maps file elf)
    (sizes : SizesNames file shstrSize) :
    ((List.range shnum).foldlM
      (ElfImage.parseSection decompress shdrs shnum shstrSize bias) elf).isSome ↔
        ∀ sh ∈ sections file, SectionEnds file sh := by
  rw [← tabled.forall_sections]
  refine isSome_foldlM (Maps file) (fun _ _ _ held => maps_parseSection held) ?_ maps
  intro state held index member
  have near := List.mem_range.mp member
  obtain ⟨sh, found⟩ := tabled.getElem?_sections near
  rw [isSome_parseSection tabled held sizes found near, found]
  simp

/-! ## The unpacked image -/

/-- The loop over the sections of the unpacked image. -/
theorem Tabled.isSome_parseDebugSections (tabled : Tabled image shdrs shnum)
    {symbols : List SymbolInfo} :
    ((List.range shnum).foldlM (ElfImage.parseDebugSection image shdrs shnum bias)
      symbols).isSome ↔ SymbolNamesEnd image [SHT_SYMTAB] := by
  rw [SymbolNamesEnd, ← tabled.forall_sections]
  refine isSome_foldlM (fun _ => True) (fun _ _ _ _ _ => trivial) ?_ trivial
  intro state _ index member
  have near := List.mem_range.mp member
  obtain ⟨sh, found⟩ := tabled.getElem?_sections near
  rw [ElfImage.parseDebugSection, tabled.readShdr_eq near, found, Option.bind_eq_bind,
    Option.bind_some]
  simp only [Option.some_inj, exists_eq_left', List.mem_singleton]
  split
  · rename_i symtab
    rw [tabled.isSome_parseTable]
    simp [symtab]
  · rename_i other
    simp [other]

theorem isSome_parseDebugdata {debugdata : Option (List UInt8)} {symbols : List SymbolInfo} :
    (ElfImage.parseDebugdata debugdata bias symbols).isSome ↔
      ∀ image, debugdata = some image → 38 + 3 * Usize.bytes ≤ image.length ∧
        (sectionTableInFile image = some true → SymbolNamesEnd image [SHT_SYMTAB]) := by
  cases debugdata with
  | none => simp [ElfImage.parseDebugdata]
  | some image =>
      simp only [Option.some_inj, forall_eq']
      rw [ElfImage.parseDebugdata, ← isSome_sectionTableInFile]
      cases decided : sectionTableInFile image with
      | none => simp
      | some inFile =>
          cases inFile with
          | false => simp
          | true =>
              obtain ⟨dshdrs, dshnum, tabled⟩ := tabled_of_sectionTableInFile decided
              simp only [Option.bind_eq_bind, Option.bind_some, if_true, tabled.shoff_eq,
                tabled.shnum_eq, Option.isSome_some, true_and, true_imp_iff]
              exact tabled.isSome_parseDebugSections

/-! ## The constructor -/

variable {findLibraryBase : Nat → Nat} {magicAt : Nat → Bool} {base : Nat}

/-- The section that the header names for the names of the sections. -/
theorem Accepted.nameSection_eq (accepted : Accepted file shdrs shnum shstrndx) :
    nameSection file = if shstrndx ≠ SHN_UNDEF ∧ shstrndx < shnum then
      ((sections file)[shstrndx]?).filter fun shstr => sectionInFile shstr file.length
    else none := by
  rw [nameSection, accepted.shstrndx_eq, Option.bind_some]
  by_cases undefined : shstrndx = SHN_UNDEF
  · simp [undefined]
  · by_cases near : shstrndx < shnum
    · simp [undefined, near]
    · have outside : (sections file)[shstrndx]? = none := by
        rw [List.getElem?_eq_none_iff, accepted.length_sections]
        omega
      simp [undefined, near, outside]

theorem Accepted.findSectionNames_eq (accepted : Accepted file shdrs shnum shstrndx) :
    ElfImage.findSectionNames file = some ((nameSection file).map Shdr.offset) := by
  rw [ElfImage.findSectionNames, accepted.shstrndx_eq, accepted.shnum_eq, accepted.nameSection_eq]
  simp only [Option.bind_eq_bind, Option.bind_some]
  split
  · rename_i defined
    obtain ⟨shstr, found⟩ := accepted.getElem?_sections defined.2
    rw [accepted.shoff_eq, Option.bind_some, accepted.readShdr_eq defined.2, found,
      Option.bind_some]
    by_cases inside : sectionInFile shstr file.length <;> simp [inside]
  · rfl

/-- The size that `ensureParsed` finds belongs to the section whose names are used. -/
theorem Accepted.readShstrSize_eq (accepted : Accepted file shdrs shnum shstrndx) :
    ∃ size, ElfImage.readShstrSize file shdrs shnum = some size ∧ SizesNames file size := by
  rw [ElfImage.readShstrSize, accepted.shstrndx_eq]
  simp only [SizesNames, accepted.nameSection_eq, Option.bind_eq_bind, Option.bind_some]
  split
  · rename_i defined
    obtain ⟨shstr, found⟩ := accepted.getElem?_sections defined.2
    rw [accepted.readShdr_eq defined.2, found]
    refine ⟨shstr.size, rfl, fun names named => ?_⟩
    have same := (Option.filter_eq_some_iff.mp named).1
    cases same
    rfl
  · exact ⟨0, rfl, nofun⟩

theorem accepted_of_new
    (accepted : ElfImage.new findLibraryBase magicAt file base = some (some elf)) :
    (∃ shdrs shnum shstrndx, Accepted file shdrs shnum shstrndx) ∧ Maps file elf ∧
      elf.debugdata = none ∧ elf.parsed = false := by
  rw [ElfImage.new] at accepted
  split at accepted
  · cases accepted
  · obtain ⟨inFile, decided, accepted⟩ := Option.bind_eq_some_iff.mp accepted
    cases inFile with
    | false => cases accepted
    | true =>
        obtain ⟨shdrs, shnum, tabled⟩ := tabled_of_sectionTableInFile decided
        obtain ⟨type, -, accepted⟩ := Option.bind_eq_some_iff.mp accepted
        dsimp only at accepted
        split at accepted
        · rename_i checked
          obtain ⟨names, named, accepted⟩ := Option.bind_eq_some_iff.mp accepted
          obtain ⟨shstrndx, shstrndx_eq, -⟩ := Option.bind_eq_some_iff.mp named
          have whole : Accepted file shdrs shnum shstrndx := ⟨tabled, shstrndx_eq⟩
          rw [whole.findSectionNames_eq] at named
          cases named
          cases accepted
          exact ⟨⟨_, _, _, whole⟩, ⟨rfl, rfl⟩, rfl, rfl⟩
        · cases accepted

/-- The parts of the condition, by the loop that needs them. -/
theorem stringsEnd_iff : StringsEnd decompress file ↔
    (∀ sh ∈ sections file, SectionEnds file sh) ∧
      ∀ image, keptDebugdata decompress file = some image →
        38 + 3 * Usize.bytes ≤ image.length ∧
          (sectionTableInFile image = some true → SymbolNamesEnd image [SHT_SYMTAB]) := by
  constructor
  · intro ends
    exact ⟨fun sh member => ⟨ends.symbolNames sh member, ends.sectionNames sh member⟩,
      fun image kept => ⟨ends.debugHeader image kept, ends.debugNames image kept⟩⟩
  · rintro ⟨inFile, inImage⟩
    exact {
      sectionNames := fun sh member => (inFile sh member).2
      symbolNames := fun sh member => (inFile sh member).1
      debugHeader := fun image kept => (inImage image kept).1
      debugNames := fun image kept => (inImage image kept).2 }

/-- Parsing stays in bounds exactly if the strings of the file and of the image that it unpacks to
end. -/
theorem parsingStaysInside_iff
    (accepted : ElfImage.new findLibraryBase magicAt file base = some (some elf)) :
    (elf.ensureParsed decompress).isSome ↔ StringsEnd decompress file := by
  obtain ⟨⟨shdrs, shnum, shstrndx, whole⟩, maps, fresh, unparsed⟩ := accepted_of_new accepted
  obtain ⟨shstrSize, size, sizes⟩ := whole.readShstrSize_eq
  have same := maps.file_eq
  subst same
  have marked : Maps elf.file { elf with parsed := true } := ⟨rfl, maps.sectionNames_eq⟩
  rw [ElfImage.ensureParsed, unparsed, whole.shoff_eq, whole.shnum_eq, stringsEnd_iff]
  simp only [Bool.false_eq_true, if_false, Option.bind_eq_bind, Option.bind_some, size]
  rw [← isSome_parseSections whole.toTabled marked sizes]
  cases loop : (List.range shnum).foldlM (ElfImage.parseSection decompress shdrs shnum shstrSize
      (if elf.isDyn then elf.base else 0)) { elf with parsed := true } with
  | none => simp
  | some walked =>
      have kept := debugdata_eq whole.toTabled marked sizes fresh loop
      have parses : (ElfImage.parseDebugdata (keptDebugdata decompress elf.file)
          (if elf.isDyn then elf.base else 0) walked.symbols).isSome ↔ _ := isSome_parseDebugdata
      rw [Option.bind_some, kept, ← parses]
      cases ElfImage.parseDebugdata (keptDebugdata decompress elf.file)
        (if elf.isDyn then elf.base else 0) walked.symbols <;> simp

/-- What has been parsed is not read again. -/
theorem ensureParsed_again (first : elf.ensureParsed decompress = some next) :
    next.ensureParsed decompress = some next := by
  have parsed : next.parsed = true := by
    rw [ElfImage.ensureParsed] at first
    split at first
    · rename_i already
      cases first
      exact already
    · obtain ⟨shdrs, -, first⟩ := Option.bind_eq_some_iff.mp first
      obtain ⟨shnum, -, first⟩ := Option.bind_eq_some_iff.mp first
      obtain ⟨shstrSize, -, first⟩ := Option.bind_eq_some_iff.mp first
      obtain ⟨walked, loop, first⟩ := Option.bind_eq_some_iff.mp first
      obtain ⟨symbols, -, first⟩ := Option.bind_eq_some_iff.mp first
      cases first
      exact foldlM_keeps (fun image => image.parsed = true)
        (fun _ _ _ held pass => by
          obtain ⟨_, _, rfl⟩ := parseSection_frame pass
          exact held) rfl loop
  rw [ElfImage.ensureParsed, if_pos parsed]

end Contents

/-! ## A name at the end of a file -/

/-- A 64-bit section header. -/
def shdrBytes (type offset size link entsize : Nat) : List UInt8 :=
  little 4 0 ++ little 4 type ++ little 16 0 ++ little 8 offset ++ little 8 size ++
    little 4 link ++ little 12 0 ++ little 8 entsize

/-- A file with one symbol, whose name is at 1 in the string table that ends the file. -/
def oneSymbol (names : List UInt8) : List UInt8 :=
  elfMag ++ [2, 1, 1] ++ little 9 0 ++ little 2 2 ++ little 22 0 ++ little 8 64 ++
    little 12 0 ++ little 2 2 ++ little 2 0 ++
    shdrBytes SHT_SYMTAB 192 24 1 24 ++ shdrBytes 3 216 names.length 0 0 ++
    little 4 1 ++ little 2 0 ++ little 2 1 ++ little 8 5 ++ little 8 0 ++ names

/-- What the constructor makes of a file that is not relocated. -/
def linkedImage (file : List UInt8) : ElfImage where
  file := file
  base := 0
  isDyn := false
  sectionNames := none

theorem terminated_name_parsed :
    (@ElfImage.ensureParsed Usize.eight (fun _ => none)
      (linkedImage (oneSymbol [0, 97, 0]))).isSome ∧
        @StringsEnd Usize.eight (fun _ => none) (oneSymbol [0, 97, 0]) := by
  have accepted : @ElfImage.new Usize.eight (fun _ => 0) (fun _ => false)
      (oneSymbol [0, 97, 0]) 0 = some (some (linkedImage (oneSymbol [0, 97, 0]))) := by
    decide +kernel
  have parsed : (@ElfImage.ensureParsed Usize.eight (fun _ => none)
      (linkedImage (oneSymbol [0, 97, 0]))).isSome := by
    decide +kernel
  exact ⟨parsed, (@parsingStaysInside_iff Usize.eight _ _ _ _ _ _ accepted).mp parsed⟩

/-- The name of the symbol is the last byte of a file that the constructor accepts. -/
theorem unterminated_name_overread :
    @ElfImage.new Usize.eight (fun _ => 0) (fun _ => false) (oneSymbol [0, 97]) 0 =
        some (some (linkedImage (oneSymbol [0, 97]))) ∧
      (@ElfImage.ensureParsed Usize.eight (fun _ => none)
        (linkedImage (oneSymbol [0, 97]))).isSome = false := by
  decide +kernel

end Znn.Loader
