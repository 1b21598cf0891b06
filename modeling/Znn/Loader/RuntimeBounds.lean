import Znn.Loader.RuntimeLookup

/-!
# The bounds of looking up a symbol in memory

What begins in a mapping can be read up to its end, and the program headers, the symbols and their
names are all bounded by that. The walk over the dynamic section is, too, unless the entry behind
the last whole one wraps: then nothing but the section itself ends it. In mappings of whole pages it
does not wrap.
-/

namespace Znn.Loader

open Bytes Usize

namespace RuntimeLookup

variable [Usize] {memory : Memory} {maps : List MapEntry} {base address : Nat}

/-! ## What can be read -/

theorem mapEnd_eq (found : mapEnd maps address ≠ 0) :
    ∃ map ∈ maps, mapEnd maps address = map.end_ ∧ map.start ≤ address ∧ address < map.end_ := by
  cases first : maps.find? (inside address) with
  | none =>
      rw [mapEnd, first] at found
      exact absurd rfl found
  | some map =>
      have within := List.find?_some first
      simp only [inside, Bool.and_eq_true, decide_eq_true_eq] at within
      refine ⟨map, List.mem_of_find?_eq_some first, ?_, within⟩
      rw [mapEnd, first]
      rfl

theorem lt_mapEnd (found : mapEnd maps address ≠ 0) : address < mapEnd maps address := by
  obtain ⟨map, -, same, -, below⟩ := mapEnd_eq found
  rw [same]
  exact below

theorem mapEnd_lt (maps : List MapEntry) (address : Nat) : mapEnd maps address < count := by
  by_cases found : mapEnd maps address = 0
  · rw [found]
    exact count_pos
  · obtain ⟨map, -, same, -⟩ := mapEnd_eq found
    rw [same]
    exact map.end_lt

/-- What begins in a mapping can be read up to its end. -/
theorem spans_mapped {start length : Nat} (found : mapEnd maps address ≠ 0)
    (fits : start + length ≤ mapEnd maps address - address) :
    (mapped memory maps (wrappingAdd address start)).Spans length := by
  intro index near
  obtain ⟨map, member, same, above, below⟩ := mapEnd_eq found
  have small := map.end_lt
  have place : wrappingAdd (wrappingAdd address start) index = address + (start + index) := by
    rw [wrappingAdd_wrappingAdd, wrappingAdd_of_lt (by omega)]
  have listed : maps.any (inside (address + (start + index))) = true := by
    rw [List.any_eq_true]
    refine ⟨map, member, ?_⟩
    simp only [inside, Bool.and_eq_true, decide_eq_true_eq]
    omega
  simp only [mapped, place, listed, if_true]
  rfl

theorem spans_header : (header memory base).Spans sizeofEhdr := by
  intro index near
  rw [header, if_pos near]
  rfl

/-! ## The program headers -/

theorem isSome_identifies (memory : Memory) (base : Nat) : (identifies memory base).isSome := by
  have magic : ((header memory base).bytes 0 elfMag.length).isSome := by
    rw [View.isSome_bytes]
    intro index near
    apply spans_header
    rw [sizeofEhdr]
    change index < 4 at near
    omega
  obtain ⟨bytes, found⟩ := Option.isSome_iff_exists.mp magic
  rw [identifies, found, Option.bind_eq_bind, Option.bind_some]
  split
  · rfl
  · refine spans_header.isSome_bind (by rw [sizeofEhdr]; omega) fun elfClass => ?_
    split
    · rfl
    · exact spans_header.isSome_bind (by rw [sizeofEhdr]; omega) fun _ => rfl

/-- The search for the dynamic section reads nothing outside of the mappings. -/
theorem isSome_findDynamic (memory : Memory) (maps : List MapEntry) (base : Nat) :
    (findDynamic memory maps base).isSome := by
  rw [findDynamic]
  split
  · rfl
  · obtain ⟨identified, checked⟩ := Option.isSome_iff_exists.mp (isSome_identifies memory base)
    rw [checked, Option.bind_eq_bind, Option.bind_some]
    split
    · rfl
    · refine spans_header.isSome_bind (by rw [sizeofEhdr]; omega) fun phoff => ?_
      refine spans_header.isSome_bind (by rw [sizeofEhdr]; omega) fun phnum => ?_
      dsimp only
      split
      · rfl
      · rename_i fits
        push Not at fits
        have searched : ((List.range phnum).findSomeM? fun index => do
            let ph ← Phdr.read
              (mapped memory maps (wrappingAdd (wrappingAdd base phoff) (index * sizeofPhdr)))
            return if ph.type = PT_DYNAMIC then some (wrappingAdd base ph.vaddr) else none).isSome := by
          apply isSome_findSomeM
          intro index member
          have entry := entry_le sizeofPhdr (List.mem_range.mp member)
          have spans : (mapped memory maps (wrappingAdd (wrappingAdd base phoff)
              (index * sizeofPhdr))).Spans sizeofPhdr :=
            spans_mapped fits.1 (by omega)
          obtain ⟨ph, read⟩ := Option.isSome_iff_exists.mp (Phdr.isSome_read spans)
          rw [read]
          rfl
        obtain ⟨found, search⟩ := Option.isSome_iff_exists.mp searched
        rw [search]
        rfl

/-! ## The dynamic section -/

variable (memory maps) in
/-- The tag of an entry, where it can be read. Addresses of entries wrap. -/
def entryTag (dyn index : Nat) : Option Nat :=
  Dyn.tag (mapped memory maps (wrappingAdd dyn (index * sizeofDyn)))

variable (memory maps) in
/-- The value of an entry, where it can be read. -/
def entryVal (dyn index : Nat) : Option Nat :=
  Dyn.val (mapped memory maps (wrappingAdd dyn (index * sizeofDyn)))

variable (memory maps) in
/-- An entry that can be read as far as it is looked at, and that is not the last one. -/
def Passed (dyn index : Nat) : Prop :=
  ∃ tag, entryTag memory maps dyn index = some tag ∧ tag ≠ DT_NULL ∧
    (tag ∈ [DT_SYMTAB, DT_STRTAB, DT_STRSZ] → (entryVal memory maps dyn index).isSome)

variable (maps) in
/-- How many whole entries there are between the dynamic section and the end of its mapping. -/
def wholeEntries (dyn : Nat) : Nat := (mapEnd maps dyn - dyn) / sizeofDyn

variable (memory maps) in
/-- The walk over the dynamic section is ended by the end of the mapping, because the end of the
entry behind the whole ones does not wrap, or by the section itself. -/
def DynamicEnds (dyn : Nat) : Prop :=
  dyn + (wholeEntries maps dyn + 1) * sizeofDyn < count ∨
    ∃ index, entryTag memory maps dyn index = some DT_NULL ∧
      ∀ earlier < index, Passed memory maps dyn earlier

variable {dyn fuel index tag : Nat} {dynamic next : Dynamic}

/-- Recording an entry that has been looked at. -/
theorem isSome_record {d : Nat} : (record memory maps base tag d dynamic).isSome ↔
    (tag ∈ [DT_SYMTAB, DT_STRTAB, DT_STRSZ] → (Dyn.val (mapped memory maps d)).isSome) := by
  rw [record]
  split
  · rename_i symtab
    simp [symtab]
  · split
    · rename_i strtab
      simp [strtab]
    · split
      · rename_i strsz
        simp [strsz]
      · rename_i symtab strtab strsz
        simp [symtab, strtab, strsz]

/-- One pass of the walk. -/
theorem walkDynamic_succ {dynEnd : Nat} :
    walkDynamic memory maps base dynEnd (fuel + 1) (wrappingAdd dyn (index * sizeofDyn)) dynamic =
      if wrappingAdd dyn ((index + 1) * sizeofDyn) ≤ dynEnd then
        (entryTag memory maps dyn index).bind fun tag =>
          if tag = DT_NULL then some { dynamic with terminated := true }
          else (record memory maps base tag (wrappingAdd dyn (index * sizeofDyn)) dynamic).bind
            (walkDynamic memory maps base dynEnd fuel (wrappingAdd dyn ((index + 1) * sizeofDyn)))
      else some dynamic := by
  rw [walkDynamic, wrappingAdd_wrappingAdd, Nat.succ_mul]
  rfl

theorem wrappingAdd_zero_mul (small : dyn < count) : wrappingAdd dyn (0 * sizeofDyn) = dyn := by
  rw [Nat.zero_mul, wrappingAdd_zero small]

/-- The walk comes to an end if some entry ends it and those before it can be read. -/
theorem isSome_walkDynamic {dynEnd last : Nat}
    (ends : dynEnd < wrappingAdd dyn ((last + 1) * sizeofDyn) ∨
      entryTag memory maps dyn last = some DT_NULL)
    (between : ∀ earlier < last, entryTag memory maps dyn earlier = some DT_NULL ∨
      Passed memory maps dyn earlier) (rest : Nat) :
    ∀ index dynamic, index + rest = last →
      (walkDynamic memory maps base dynEnd (rest + 1) (wrappingAdd dyn (index * sizeofDyn))
        dynamic).isSome := by
  induction rest with
  | zero =>
      intro index dynamic same
      rw [Nat.add_zero] at same
      subst same
      rw [walkDynamic_succ]
      split
      · rename_i goesOn
        have null := ends.resolve_left (by omega)
        rw [null, Option.bind_some, if_pos rfl]
        rfl
      · rfl
  | succ rest ih =>
      intro index dynamic distance
      rw [walkDynamic_succ]
      split
      · rcases between index (by omega) with null | ⟨tag, read, other, consulted⟩
        · rw [null, Option.bind_some, if_pos rfl]
          rfl
        · have readable : (record memory maps base tag (wrappingAdd dyn (index * sizeofDyn))
              dynamic).isSome := isSome_record.mpr consulted
          obtain ⟨next, recorded⟩ := Option.isSome_iff_exists.mp readable
          rw [read, Option.bind_some, if_neg other, recorded, Option.bind_some]
          exact ih (index + 1) next (by omega)
      · rfl

/-- A whole entry can be read. -/
theorem null_or_passed (found : mapEnd maps dyn ≠ 0) (whole : index < wholeEntries maps dyn) :
    entryTag memory maps dyn index = some DT_NULL ∨ Passed memory maps dyn index := by
  have entry := entry_le sizeofDyn whole
  have fits := Nat.div_mul_le_self (mapEnd maps dyn - dyn) sizeofDyn
  rw [wholeEntries] at entry
  have spans : (mapped memory maps (wrappingAdd dyn (index * sizeofDyn))).Spans sizeofDyn :=
    spans_mapped found (by omega)
  obtain ⟨tag, read⟩ := Option.isSome_iff_exists.mp
    (spans.isSome_number (show 0 + Usize.bytes ≤ sizeofDyn by rw [sizeofDyn]; omega))
  by_cases null : tag = DT_NULL
  · left
    rw [← null]
    exact read
  · right
    exact ⟨tag, read, null, fun _ => spans.isSome_number (by rw [sizeofDyn]; omega)⟩

theorem sizeofDyn_pos : 0 < sizeofDyn := by
  have pos := Usize.bytes_pos
  rw [sizeofDyn]
  omega

theorem sizeofDyn_dvd_count : sizeofDyn ∣ count := by
  rcases Usize.bytes_eq with four | eight
  · rw [sizeofDyn, count, four]
    norm_num
  · rw [sizeofDyn, count, eight]
    norm_num

/-- The walk comes to an end on the condition. -/
theorem exists_walkDynamic (found : mapEnd maps dyn ≠ 0) (ends : DynamicEnds memory maps dyn) :
    ∃ fuel dynamic, walkDynamic memory maps base (mapEnd maps dyn) fuel dyn {} = some dynamic := by
  have below := lt_mapEnd found
  have small := mapEnd_lt maps dyn
  have start := wrappingAdd_zero_mul (show dyn < count by omega)
  rcases ends with fits | ⟨last, null, passed⟩
  · have beyond : mapEnd maps dyn <
        wrappingAdd dyn ((wholeEntries maps dyn + 1) * sizeofDyn) := by
      have next := Nat.lt_mul_div_succ (mapEnd maps dyn - dyn) sizeofDyn_pos
      rw [Nat.mul_comm] at next
      rw [wrappingAdd_of_lt fits, wholeEntries]
      omega
    have walked : (walkDynamic memory maps base _ _ _ {}).isSome :=
      isSome_walkDynamic (.inl beyond) (fun _ near => null_or_passed found near) _ 0 {}
        (Nat.zero_add _)
    rw [start] at walked
    exact ⟨_, Option.isSome_iff_exists.mp walked⟩
  · have walked : (walkDynamic memory maps base (mapEnd maps dyn) _ _ {}).isSome :=
      isSome_walkDynamic (.inr null) (fun earlier near => .inr (passed earlier near)) _ 0 {}
        (Nat.zero_add _)
    rw [start] at walked
    exact ⟨_, Option.isSome_iff_exists.mp walked⟩

/-- If the end of the entry behind the whole ones wraps, the end of the mapping never ends the
walk: an address beyond the last whole entry would be one of the next, and there is none. -/
theorem entry_le_mapEnd (found : mapEnd maps dyn ≠ 0)
    (wraps : count ≤ dyn + (wholeEntries maps dyn + 1) * sizeofDyn) (index : Nat) :
    wrappingAdd dyn (index * sizeofDyn) ≤ mapEnd maps dyn := by
  have below := lt_mapEnd found
  have whole := Nat.div_mul_le_self (mapEnd maps dyn - dyn) sizeofDyn
  rw [← wholeEntries] at whole
  rw [Nat.succ_mul] at wraps
  have small := wrappingAdd_lt dyn (index * sizeofDyn)
  have aligned : dyn + wholeEntries maps dyn * sizeofDyn ≡
      wrappingAdd dyn (index * sizeofDyn) [MOD sizeofDyn] := by
    rw [Nat.ModEq, wrappingAdd, Nat.mod_mod_of_dvd _ sizeofDyn_dvd_count,
      Nat.add_mul_mod_self_right, Nat.add_mul_mod_self_right]
  by_contra above
  have le : dyn + wholeEntries maps dyn * sizeofDyn ≤ wrappingAdd dyn (index * sizeofDyn) := by
    omega
  have apart := Nat.le_of_dvd (by omega) ((Nat.modEq_iff_dvd' le).mp aligned)
  omega

/-- A walk that the end of the mapping does not end is ended by the section. -/
theorem exists_null_of_walkDynamic {dynEnd : Nat}
    (goesOn : ∀ index, wrappingAdd dyn (index * sizeofDyn) ≤ dynEnd)
    (passed : ∀ earlier < index, Passed memory maps dyn earlier)
    (walk : walkDynamic memory maps base dynEnd fuel (wrappingAdd dyn (index * sizeofDyn)) dynamic =
      some next) :
    ∃ last, entryTag memory maps dyn last = some DT_NULL ∧
      ∀ earlier < last, Passed memory maps dyn earlier := by
  induction fuel generalizing index dynamic with
  | zero => cases walk
  | succ fuel ih =>
      rw [walkDynamic_succ, if_pos (goesOn _)] at walk
      obtain ⟨tag, read, walk⟩ := Option.bind_eq_some_iff.mp walk
      split at walk
      · rename_i null
        rw [null] at read
        exact ⟨index, read, passed⟩
      · rename_i other
        obtain ⟨recorded, consulted, walk⟩ := Option.bind_eq_some_iff.mp walk
        refine ih (fun earlier near => ?_) walk
        by_cases here : earlier = index
        · subst here
          exact ⟨tag, read, other, isSome_record.mp (Option.isSome_of_eq_some consulted)⟩
        · exact passed earlier (by omega)

theorem dynamicEnds_of_walkDynamic (found : mapEnd maps dyn ≠ 0)
    (walk : walkDynamic memory maps base (mapEnd maps dyn) fuel dyn {} = some next) :
    DynamicEnds memory maps dyn := by
  by_cases fits : dyn + (wholeEntries maps dyn + 1) * sizeofDyn < count
  · exact .inl fits
  · have below := lt_mapEnd found
    have small := mapEnd_lt maps dyn
    have walk : walkDynamic memory maps base (mapEnd maps dyn) fuel
        (wrappingAdd dyn (0 * sizeofDyn)) {} = some next := by
      rw [wrappingAdd_zero_mul (by omega)]
      exact walk
    exact .inr (exists_null_of_walkDynamic (entry_le_mapEnd found (by omega))
      (fun _ near => absurd near (Nat.not_lt_zero _)) walk)

/-- A mapping that leaves room for an entry behind it ends the walk. -/
theorem dynamicEnds_of_room (found : mapEnd maps dyn ≠ 0)
    (room : ∀ map ∈ maps, map.end_ + sizeofDyn < count) : DynamicEnds memory maps dyn := by
  obtain ⟨map, member, same, -, below⟩ := mapEnd_eq found
  have whole := Nat.div_mul_le_self (mapEnd maps dyn - dyn) sizeofDyn
  rw [← wholeEntries] at whole
  have clear := room map member
  left
  rw [Nat.succ_mul]
  omega

variable (memory maps) in
/-- An entry with the tag has the value. -/
def Reports (dyn tag value : Nat) : Prop :=
  ∃ index, entryTag memory maps dyn index = some tag ∧ entryVal memory maps dyn index = some value

variable (memory maps base) in
/-- What is known of the tables is what the dynamic section reports. -/
structure Recorded (dyn : Nat) (dynamic : Dynamic) : Prop where
  symtab : dynamic.symtab ≠ 0 →
    ∃ ptr, Reports memory maps dyn DT_SYMTAB ptr ∧ dynamic.symtab = wrappingAdd base ptr
  strtab : dynamic.strtab ≠ 0 →
    ∃ ptr, Reports memory maps dyn DT_STRTAB ptr ∧ dynamic.strtab = wrappingAdd base ptr
  strsz : dynamic.strsz ≠ 0 → Reports memory maps dyn DT_STRSZ dynamic.strsz

theorem Recorded.record (recorded : Recorded memory maps base dyn dynamic)
    (read : entryTag memory maps dyn index = some tag)
    (pass : record memory maps base tag (wrappingAdd dyn (index * sizeofDyn)) dynamic = some next) :
    Recorded memory maps base dyn next := by
  rw [RuntimeLookup.record] at pass
  split at pass
  · rename_i symtab
    obtain ⟨ptr, val, rfl⟩ := Option.map_eq_some_iff.mp pass
    rw [symtab] at read
    exact ⟨fun _ => ⟨ptr, ⟨index, read, val⟩, rfl⟩, recorded.strtab, recorded.strsz⟩
  · split at pass
    · rename_i strtab
      obtain ⟨ptr, val, rfl⟩ := Option.map_eq_some_iff.mp pass
      rw [strtab] at read
      exact ⟨recorded.symtab, fun _ => ⟨ptr, ⟨index, read, val⟩, rfl⟩, recorded.strsz⟩
    · split at pass
      · rename_i strsz
        obtain ⟨size, val, rfl⟩ := Option.map_eq_some_iff.mp pass
        rw [strsz] at read
        exact ⟨recorded.symtab, recorded.strtab, fun _ => ⟨index, read, val⟩⟩
      · cases pass
        exact recorded

theorem Recorded.walkDynamic {dynEnd : Nat} (recorded : Recorded memory maps base dyn dynamic)
    (walk : walkDynamic memory maps base dynEnd fuel (wrappingAdd dyn (index * sizeofDyn)) dynamic =
      some next) : Recorded memory maps base dyn next := by
  induction fuel generalizing index dynamic with
  | zero => cases walk
  | succ fuel ih =>
      rw [walkDynamic_succ] at walk
      split at walk
      · obtain ⟨tag, read, walk⟩ := Option.bind_eq_some_iff.mp walk
        split at walk
        · cases walk
          exact ⟨recorded.symtab, recorded.strtab, recorded.strsz⟩
        · obtain ⟨further, pass, walk⟩ := Option.bind_eq_some_iff.mp walk
          exact ih (recorded.record read pass) walk
      · cases walk
        exact recorded

/-! ## The tables -/

variable {name : List UInt8} {tables : Tables}

/-- The tables lie in the mappings in which they begin. -/
structure Bounded (maps : List MapEntry) (tables : Tables) : Prop where
  symtab_mapped : mapEnd maps tables.symtab ≠ 0
  symbols : tables.maxSyms * sizeofSym ≤ mapEnd maps tables.symtab - tables.symtab
  strtab_mapped : mapEnd maps tables.strtab ≠ 0
  strings : tables.strsz ≤ mapEnd maps tables.strtab - tables.strtab

theorem maxSyms_mul_le (maps : List MapEntry) (symtab strtab : Nat) :
    maxSyms maps symtab strtab * sizeofSym ≤ mapEnd maps symtab - symtab := by
  have whole := Nat.div_mul_le_self (mapEnd maps symtab - symtab) sizeofSym
  rw [maxSyms]
  split
  · exact (Nat.mul_le_mul_right _ (Nat.min_le_left _ _)).trans whole
  · exact whole

theorem bounds_spec (found : bounds maps dynamic = some tables) :
    Bounded maps tables ∧ tables.symtab = dynamic.symtab ∧ tables.strtab = dynamic.strtab ∧
      dynamic.symtab ≠ 0 ∧ dynamic.strtab ≠ 0 ∧ dynamic.strsz ≠ 0 ∧
        tables.strsz ≤ dynamic.strsz := by
  rw [bounds] at found
  split at found
  · cases found
  · rename_i known
    split at found
    · cases found
    · rename_i begins
      split at found
      · cases found
      · cases found
        push Not at known begins
        obtain ⟨-, symtab, strtab, strsz⟩ := known
        exact ⟨⟨begins.1, maxSyms_mul_le _ _ _, begins.2, Nat.min_le_right _ _⟩, rfl, rfl,
          symtab, strtab, strsz, Nat.min_le_left _ _⟩

/-- A symbol of the table and the name that it has are read inside of the mappings. -/
theorem Bounded.isSome_matchSymbol (bounded : Bounded maps tables)
    (near : index < tables.maxSyms) :
    (matchSymbol memory maps base name tables index).isSome := by
  have entry := entry_le sizeofSym near
  have symbols := bounded.symbols
  have spans : (mapped memory maps (wrappingAdd tables.symtab (index * sizeofSym))).Spans
      sizeofSym := spans_mapped bounded.symtab_mapped (by omega)
  rw [matchSymbol, Sym.read_eq spans, Option.bind_eq_bind, Option.bind_some]
  generalize Sym.of _ = s
  split
  · rfl
  · split
    · rfl
    · rename_i inTable
      split
      · rfl
      · rename_i fits
        have strings := bounded.strings
        have readable : ((mapped memory maps (wrappingAdd tables.strtab s.name)).bytes 0
            (name.length + 1)).isSome := by
          rw [View.isSome_bytes]
          intro index near
          have spans : (mapped memory maps (wrappingAdd tables.strtab s.name)).Spans
              (name.length + 1) := spans_mapped bounded.strtab_mapped (by omega)
          apply spans
          omega
        obtain ⟨text, read⟩ := Option.isSome_iff_exists.mp readable
        rw [read]
        rfl

theorem Bounded.isSome_searchSymbols (bounded : Bounded maps tables) :
    (searchSymbols memory maps base name tables).isSome := by
  apply isSome_findSomeM
  intro index member
  rw [List.mem_range'_1] at member
  exact bounded.isSome_matchSymbol (by omega)

/-! ## What is found -/

variable (memory maps base) in
/-- A symbol of the library that begins at the base: it is in the symbol table that the dynamic
section gives, up to the end of the mapping of which, and its name is in the string table. -/
structure SymbolAt (name : List UInt8) (address : Nat) (s : Sym) (index symtab strtab : Nat) :
    Prop where
  symtab_reported : ∃ dyn ptr, findDynamic memory maps base = some dyn ∧
    Reports memory maps dyn DT_SYMTAB ptr ∧ symtab = wrappingAdd base ptr
  strtab_reported : ∃ dyn ptr strsz, findDynamic memory maps base = some dyn ∧
    Reports memory maps dyn DT_STRTAB ptr ∧ strtab = wrappingAdd base ptr ∧
      Reports memory maps dyn DT_STRSZ strsz ∧ s.name + (name.length + 1) ≤ strsz
  index_pos : 1 ≤ index
  inTable : symtab + (index + 1) * sizeofSym ≤ mapEnd maps symtab
  read : Sym.read (mapped memory maps (symtab + index * sizeofSym)) = some s
  defined : s.shndx ≠ SHN_UNDEF
  value_ne : s.value ≠ 0
  address_eq : address = wrappingAdd base s.value
  inStrings : strtab + s.name + (name.length + 1) ≤ mapEnd maps strtab
  name_eq : load memory (strtab + s.name) (name.length + 1) = name ++ [0]

/-- What is read of the memory is what is there. -/
theorem eq_load_of_bytes {length : Nat} {text : List UInt8}
    (read : (mapped memory maps address).bytes 0 length = some text) :
    text = load memory address length := by
  refine eq_map_of_mapM (fun index byte here => ?_) read
  rw [Nat.zero_add] at here
  simp only [mapped] at here
  split at here
  · cases here
    rfl
  · cases here

/-- A symbol that matches has been read inside of the table, and so has its name. -/
theorem Bounded.of_matchSymbol (bounded : Bounded maps tables) {size : Nat}
    (near : index < tables.maxSyms)
    (found : matchSymbol memory maps base name tables index = some (some (address, size))) :
    ∃ s, Sym.read (mapped memory maps (tables.symtab + index * sizeofSym)) = some s ∧
      s.shndx ≠ SHN_UNDEF ∧ s.value ≠ 0 ∧ address = wrappingAdd base s.value ∧ size = s.size ∧
        s.name + (name.length + 1) ≤ tables.strsz ∧
          load memory (tables.strtab + s.name) (name.length + 1) = name ++ [0] := by
  have entry := entry_le sizeofSym near
  have symbols := bounded.symbols
  have strings := bounded.strings
  have symtabEnd := mapEnd_lt maps tables.symtab
  have strtabEnd := mapEnd_lt maps tables.strtab
  have symtabBelow := lt_mapEnd bounded.symtab_mapped
  have strtabBelow := lt_mapEnd bounded.strtab_mapped
  rw [matchSymbol, wrappingAdd_of_lt (by omega)] at found
  obtain ⟨s, read, found⟩ := Option.bind_eq_some_iff.mp found
  split at found
  · cases found
  · rename_i defined
    split at found
    · cases found
    · rename_i named
      split at found
      · cases found
      · rename_i fits
        rw [wrappingAdd_of_lt (by omega)] at found
        obtain ⟨text, bytes, found⟩ := Option.bind_eq_some_iff.mp found
        split at found
        · rename_i same
          cases found
          push Not at defined
          refine ⟨s, read, defined.1, defined.2, rfl, rfl, by omega, ?_⟩
          rw [← same, eq_load_of_bytes bytes]
        · cases found

/-- An address that is returned is that of a symbol with the name. -/
theorem symbolAt_of_runtimeLookup {size : Option Nat}
    (found : runtimeLookup memory maps base fuel name = some (address, size))
    (nonzero : address ≠ 0) :
    ∃ s index symtab strtab, SymbolAt memory maps base name address s index symtab strtab := by
  obtain ⟨dyn, located, found⟩ := Option.bind_eq_some_iff.mp found
  split at found
  · cases found
    exact absurd rfl nonzero
  · rename_i begins
    push Not at begins
    obtain ⟨dynamic, walk, found⟩ := Option.bind_eq_some_iff.mp found
    have below := lt_mapEnd begins.2
    have small := mapEnd_lt maps dyn
    rw [← wrappingAdd_zero_mul (show dyn < count by omega)] at walk
    have start : Recorded memory maps base dyn {} :=
      ⟨fun known => absurd rfl known, fun known => absurd rfl known, fun known => absurd rfl known⟩
    split at found
    · cases found
      exact absurd rfl nonzero
    · rename_i tables known
      obtain ⟨bounded, symtab_eq, strtab_eq, symtab, strtab, strsz, strsz_le⟩ := bounds_spec known
      obtain ⟨answer, search, found⟩ := Option.bind_eq_some_iff.mp found
      split at found
      · cases found
        obtain ⟨index, member, matches_⟩ := exists_of_findSomeM search
        rw [List.mem_range'_1] at member
        have near : index < tables.maxSyms := by omega
        obtain ⟨s, read, defined, value, same, -, named, text⟩ := bounded.of_matchSymbol near matches_
        obtain ⟨symtabPtr, symtabSaid, symtabAt⟩ := (start.walkDynamic walk).symtab symtab
        obtain ⟨strtabPtr, strtabSaid, strtabAt⟩ := (start.walkDynamic walk).strtab strtab
        have strszSaid := (start.walkDynamic walk).strsz strsz
        have entry := entry_le sizeofSym near
        have symbols := bounded.symbols
        have strings := bounded.strings
        have symtabBelow := lt_mapEnd bounded.symtab_mapped
        have strtabBelow := lt_mapEnd bounded.strtab_mapped
        exact ⟨s, index, tables.symtab, tables.strtab, {
          symtab_reported := ⟨dyn, symtabPtr, located, symtabSaid, symtab_eq.trans symtabAt⟩
          strtab_reported := ⟨dyn, strtabPtr, dynamic.strsz, located, strtabSaid,
            strtab_eq.trans strtabAt, strszSaid, by omega⟩
          index_pos := member.1
          inTable := by rw [Nat.succ_mul]; omega
          read := read
          defined := defined
          value_ne := value
          address_eq := same
          inStrings := by omega
          name_eq := text }⟩
      · cases found
        exact absurd rfl nonzero

/-! ## The lookup as a whole -/

/-- The lookup has a result exactly if the walk over a dynamic section that it reaches has one. -/
theorem isSome_runtimeLookup (located : findDynamic memory maps base = some dyn) :
    (runtimeLookup memory maps base fuel name).isSome ↔
      (dyn ≠ 0 → mapEnd maps dyn ≠ 0 →
        (walkDynamic memory maps base (mapEnd maps dyn) fuel dyn {}).isSome) := by
  rw [runtimeLookup, located, Option.bind_eq_bind, Option.bind_some]
  split
  · rename_i unreached
    refine iff_of_true rfl fun found mapped => ?_
    rcases unreached with null | unmapped
    · exact absurd null found
    · exact absurd unmapped mapped
  · rename_i reached
    push Not at reached
    simp only [reached.1, reached.2, ne_eq, not_false_eq_true, true_imp_iff]
    cases walk : walkDynamic memory maps base (mapEnd maps dyn) fuel dyn {} with
    | none => simp
    | some dynamic =>
        rw [Option.bind_eq_bind, Option.bind_some]
        refine iff_of_true ?_ rfl
        split
        · rfl
        · rename_i tables known
          have searched : (searchSymbols memory maps base name tables).isSome :=
            (bounds_spec known).1.isSome_searchSymbols
          obtain ⟨answer, search⟩ := Option.isSome_iff_exists.mp searched
          rw [search]
          cases answer <;> rfl

/-- The lookup comes back having read nothing outside of the mappings, and what it returns is a
symbol with the name, exactly if a dynamic section that it reaches ends the walk over it. -/
theorem lookupBounded_iff (memory : Memory) (maps : List MapEntry) (base : Nat)
    (name : List UInt8) :
    ((∃ fuel, (runtimeLookup memory maps base fuel name).isSome) ∧
        ∀ fuel address size, runtimeLookup memory maps base fuel name = some (address, size) →
          address ≠ 0 → ∃ s index symtab strtab,
            SymbolAt memory maps base name address s index symtab strtab) ↔
      ∀ dyn, findDynamic memory maps base = some dyn → dyn ≠ 0 → mapEnd maps dyn ≠ 0 →
        DynamicEnds memory maps dyn := by
  constructor
  · rintro ⟨⟨fuel, result⟩, -⟩ dyn located found begins
    have walked := (isSome_runtimeLookup located).mp result found begins
    obtain ⟨dynamic, walk⟩ := Option.isSome_iff_exists.mp walked
    exact dynamicEnds_of_walkDynamic begins walk
  · intro ends
    obtain ⟨dyn, located⟩ := Option.isSome_iff_exists.mp (isSome_findDynamic memory maps base)
    refine ⟨?_, fun _ _ _ found nonzero => symbolAt_of_runtimeLookup found nonzero⟩
    simp only [isSome_runtimeLookup located]
    by_cases reached : dyn ≠ 0 ∧ mapEnd maps dyn ≠ 0
    · obtain ⟨fuel, dynamic, walk⟩ : ∃ fuel dynamic,
          walkDynamic memory maps base (mapEnd maps dyn) fuel dyn {} = some dynamic :=
        exists_walkDynamic reached.2 (ends dyn located reached.1 reached.2)
      refine ⟨fuel, fun _ _ => ?_⟩
      rw [walk]
      rfl
    · exact ⟨0, fun found begins => absurd ⟨found, begins⟩ reached⟩

/-- The kernel maps whole pages, and a page has 4096 bytes or a multiple of that. -/
def WholePages (maps : List MapEntry) : Prop :=
  ∀ map ∈ maps, 4096 ∣ map.end_

/-- Behind the last page there is room for an entry. -/
theorem WholePages.room (pages : WholePages maps) : ∀ map ∈ maps, map.end_ + sizeofDyn < count := by
  intro map member
  obtain ⟨number, isEnd⟩ := pages map member
  have below := map.end_lt
  rcases Usize.bytes_eq with four | eight
  · rw [count, four] at below ⊢
    rw [sizeofDyn, four]
    omega
  · rw [count, eight] at below ⊢
    rw [sizeofDyn, eight]
    omega

/-- With mappings of whole pages the lookup always comes back, has read nothing outside of them, and
returns only the address of a symbol with the name. -/
theorem lookup_bounded (memory : Memory) (maps : List MapEntry) (base : Nat) (name : List UInt8)
    (pages : WholePages maps) :
    (∃ fuel, (runtimeLookup memory maps base fuel name).isSome) ∧
      ∀ fuel address size, runtimeLookup memory maps base fuel name = some (address, size) →
        address ≠ 0 → ∃ s index symtab strtab,
          SymbolAt memory maps base name address s index symtab strtab := by
  apply (lookupBounded_iff memory maps base name).mpr
  exact fun _ _ _ begins => dynamicEnds_of_room begins pages.room

/-! ## A library of one page -/

/-- A 64-bit library with one symbol, `a`. -/
def onePage : List UInt8 :=
  elfMag ++ [2, 1, 1] ++ little 25 0 ++ little 8 64 ++ little 16 0 ++ little 2 1 ++ little 6 0 ++
    little 4 PT_DYNAMIC ++ little 12 0 ++ little 8 128 ++ little 40 0 ++
    little 8 DT_SYMTAB ++ little 8 192 ++ little 8 DT_STRTAB ++ little 8 240 ++
    little 8 DT_STRSZ ++ little 8 3 ++ little 16 0 ++
    little 24 0 ++ little 4 1 ++ little 2 0 ++ little 2 1 ++ little 8 256 ++ little 8 7 ++
    [0, 97, 0]

/-- The library at 4096. -/
def pageMemory : Memory := fun address => onePage.getD (address - 4096) 0

def pageMaps : List (@MapEntry Usize.eight) := [@MapEntry.mk Usize.eight 4096 8192 (by decide)]

omit [Usize] in
theorem lookup_bounded_found : let _ : Usize := .eight
    runtimeLookup pageMemory pageMaps 4096 4 [97] = some (4352, some 7) ∧
      ∃ s index symtab strtab, SymbolAt pageMemory pageMaps 4096 [97] 4352 s index symtab strtab := by
  intro _
  have found : runtimeLookup pageMemory pageMaps 4096 4 [97] = some (4352, some 7) := by
    decide +kernel
  have pages : WholePages pageMaps := by
    unfold WholePages pageMaps
    decide
  exact ⟨found, (lookup_bounded pageMemory pageMaps 4096 [97] pages).2 4 4352 (some 7) found
    (by decide)⟩

end RuntimeLookup

end Znn.Loader
