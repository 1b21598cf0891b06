import Znn.Bytes.Framing
import Znn.Injector.Maps
import Znn.Text.Scanf

/-!
# The memory map in the loader

`parseMapsPath` scans every line with one `sscanf` into buffers of fixed size. The columns are read
as they were printed, the path as far as its buffer goes. Together with the parser of the injector
this says for which mappings both of them invert the kernel.
-/

namespace Znn.Loader.Maps

open Text Bytes Usize

variable [Usize]

/-- An entry; `dev` holds what `makedev` is applied to. -/
structure MapEntry where
  start : Nat
  stop : Nat
  offset : Nat
  dev : Nat × Nat
  inode : Nat
  perms : Nat
  isPrivate : Bool
  path : List UInt8
deriving DecidableEq, Repr

/-- The format of the scan. -/
def mapsFormat : List Directive :=
  [.number 16 (8 * Usize.bytes), .literal 45, .number 16 (8 * Usize.bytes), .blanks, .word 7,
    .blanks, .number 16 (8 * Usize.bytes), .blanks, .number 16 32, .literal 58, .number 16 32,
    .blanks, .number 10 (8 * Usize.bytes), .blanks, .line 511]

/-- A turn of the loop: the entry of a line, unless it is skipped. -/
def parseMapsLine (line : List UInt8) : Option MapEntry :=
  match sscanf mapsFormat (line.takeWhile fun byte => byte ≠ 0) with
  | .number start :: .number stop :: .text perms :: .number offset :: .number devmaj ::
      .number devmin :: .number inode :: path =>
        let read := if perms[0]? = some 114 then Injector.Maps.PROT_READ else 0
        let write := if perms[1]? = some 119 then Injector.Maps.PROT_WRITE else 0
        let exec := if perms[2]? = some 120 then Injector.Maps.PROT_EXEC else 0
        some {
          start := start
          stop := stop
          offset := offset
          dev := (devmaj, devmin)
          inode := inode
          perms := read ||| write ||| exec
          isPrivate := decide (perms[3]? = some 112)
          path := match path with
            | .text mpath :: _ => mpath
            | _ => [] }
  | _ => none

/-- The lines that `getline` returns, each with its line feed. -/
def getlines (contents : List UInt8) : List (List UInt8) :=
  (Framing.completeLines 10 contents).map (· ++ [10]) ++
    if Framing.lastLine 10 contents = [] then [] else [Framing.lastLine 10 contents]

/-- `parseMapsPath`, for what the file holds if it can be opened. -/
def parseMapsPath (contents : Option (List UInt8)) : List MapEntry :=
  match contents with
  | none => []
  | some contents => (getlines contents).filterMap parseMapsLine

section Scan

variable (mapping : Mapping) (padding : Nat)

omit [Usize] in
theorem endsNumber_of_plain {byte : UInt8} {rest : List UInt8} (plain : hexDigit byte = none)
    (unmarked : byte ≠ 120 ∧ byte ≠ 88) : EndsNumber (byte :: rest) := by
  intro first head
  cases head
  refine ⟨?_, unmarked⟩
  intro base
  rw [isDigitIn, plain]
  rfl

/-- The scan assigns the path, unless there is none. -/
theorem sscanf_path :
    sscanf [.blanks, .line 511] (32 :: (List.replicate padding 32 ++
      (utf8 mapping.path.toList ++ [10]))) =
        if utf8 mapping.path.toList = [] then []
        else [.text ((utf8 mapping.path.toList).take 511)] := by
  have blanks : ∀ byte ∈ List.replicate (padding + 1) (32 : UInt8), isSpace byte = true := by
    intro byte member
    rw [List.eq_of_mem_replicate member]
    rfl
  by_cases none : utf8 mapping.path.toList = []
  · rw [if_pos none, none, sscanf, ← List.cons_append, ← List.replicate_succ,
      List.dropWhile_append_of_pos blanks]
    rfl
  · have solid : ∀ byte ∈ (utf8 mapping.path.toList ++ [10]).head?, isSpace byte = false := by
      intro byte head
      rw [List.head?_append_of_ne_nil _ none] at head
      have plain := mapping.solid_path head
      simp only [isSpace, Bool.or_eq_false_iff, beq_eq_false_iff_ne, Bool.and_eq_false_iff,
        decide_eq_false_iff_not, UInt8.le_iff_toNat_le, ne_eq, ← UInt8.toNat_inj,
        UInt8.reduceToNat]
      omega
    rw [if_neg none, ← List.cons_append, ← List.replicate_succ, sscanf_blanks solid,
      sscanf_line mapping.not_mem_path.1]
    intro empty
    rcases List.take_eq_nil_iff.mp empty with zero | nothing
    · cases zero
    · exact none nothing

theorem sscanf_mapsFormat :
    ∃ devmaj devmin inode, sscanf mapsFormat (mapping.line padding ++ [10]) =
      .number mapping.start :: .number mapping.stop :: .text mapping.flags ::
        .number mapping.offset :: .number devmaj :: .number devmin :: .number inode ::
          if utf8 mapping.path.toList = [] then []
          else [.text ((utf8 mapping.path.toList).take 511)] := by
  rcases mapping.fits with ⟨start, stop, offset⟩
  have width : 8 * Usize.bytes ≤ 64 ∧ count = 2 ^ (8 * Usize.bytes) := by
    constructor
    · rcases bytes_eq with four | eight <;> omega
    · rw [count, pow_mul]
      rfl
  rw [width.2] at start stop offset
  have ends : ∀ {byte : UInt8} {rest : List UInt8}, byte = 32 ∨ byte = 45 ∨ byte = 58 →
      EndsNumber (byte :: rest) := by
    rintro byte rest (rfl | rfl | rfl) <;> exact endsNumber_of_plain rfl (by decide)
  have flags : (∀ byte ∈ mapping.flags, isSpace byte = false) ∧ mapping.flags ≠ [] := by
    rcases mapping with ⟨_, _, _, _, readable, writable, executable, shared⟩
    cases readable <;> cases writable <;> cases executable <;> cases shared <;>
      simp [Mapping.flags, isSpace]
  have solidFlags : ∀ {rest : List UInt8}, ∀ byte ∈ (mapping.flags ++ rest).head?,
      isSpace byte = false := by
    intro rest byte head
    rw [List.head?_append_of_ne_nil _ flags.2] at head
    exact flags.1 byte (List.mem_of_mem_head? head)
  have solid : ∀ (width value : Nat) {rest : List UInt8},
      ∀ byte ∈ (hexadecimal width value ++ rest).head?, isSpace byte = false :=
    fun width value => solid_digits (digits_hexadecimal width value) (hexadecimal_ne_nil width value)
  have text : mapping.line padding ++ [10] = hexadecimal 8 mapping.start ++ 45 ::
      (hexadecimal 8 mapping.stop ++ 32 :: (mapping.flags ++ 32 ::
        (hexadecimal 8 mapping.offset ++ 32 :: (hexadecimal 2 mapping.major ++ 58 ::
          (hexadecimal 2 mapping.minor ++ 32 :: (octets (Nat.toDigits 10 mapping.inode) ++ 32 ::
            (List.replicate padding 32 ++ (utf8 mapping.path.toList ++ [10])))))))) := by
    simp [Mapping.line, Mapping.range, Mapping.device]
  rw [text, mapsFormat, sscanf_hexadecimal 8 width.1 start (ends (.inr (.inl rfl))), sscanf_literal,
    sscanf_hexadecimal 8 width.1 stop (ends (.inl rfl)), sscanf_blank solidFlags,
    sscanf_word flags.1 flags.2 (by simp [Mapping.flags]) (by simp [isSpace]),
    sscanf_blank (solid _ _), sscanf_hexadecimal 8 width.1 offset (ends (.inl rfl)),
    sscanf_blank (solid _ _), sscanf_number (digits_hexadecimal _ _) (hexadecimal_ne_nil _ _)
      (ends (.inr (.inr rfl))), sscanf_literal,
    sscanf_number (digits_hexadecimal _ _) (hexadecimal_ne_nil _ _) (ends (.inl rfl)),
    sscanf_blank (solid_digits (digits_decimal _) (decimal_ne_nil _)),
    sscanf_number (digits_decimal _) (decimal_ne_nil _) (ends (.inl rfl)), sscanf_path]
  exact ⟨_, _, _, rfl⟩

/-- What the loader is after in a line. -/
def MapEntry.seen (entry : MapEntry) : Nat × Nat × Nat × Nat × List UInt8 :=
  (entry.start, entry.stop, entry.offset, entry.perms, entry.path)

/-- A line is read as what was printed, with the front of its path. -/
theorem parseMapsLine_line :
    ∃ entry, parseMapsLine (mapping.line padding ++ [10]) = some entry ∧
      entry.seen = (mapping.start, mapping.stop, mapping.offset, mapping.perms,
        (utf8 mapping.path.toList).take 511) := by
  have whole : (mapping.line padding ++ [10]).takeWhile (fun byte => decide (byte ≠ 0)) =
      mapping.line padding ++ [10] := by
    rw [List.takeWhile_eq_self_iff]
    intro byte member
    rw [decide_eq_true_iff]
    rintro rfl
    rcases List.mem_append.mp member with inLine | feed
    · exact mapping.not_mem_line padding (.inr rfl) inLine
    · cases List.mem_singleton.mp feed
  rcases sscanf_mapsFormat mapping padding with ⟨devmaj, devmin, inode, scanned⟩
  rw [parseMapsLine, whole, scanned]
  refine ⟨_, rfl, ?_⟩
  have path : (match (if utf8 mapping.path.toList = [] then ([] : List Converted)
      else [.text ((utf8 mapping.path.toList).take 511)]) with
        | .text mpath :: _ => mpath
        | _ => []) = (utf8 mapping.path.toList).take 511 := by
    by_cases none : utf8 mapping.path.toList = []
    · rw [if_pos none, none]
      rfl
    · rw [if_neg none]
  simp only [MapEntry.seen, Injector.Maps.perms_flags, path]

theorem getlines_file (mappings : List (Mapping × Nat)) :
    getlines (Mapping.file mappings) =
      mappings.map fun (mapping, padding) => mapping.line padding ++ [10] := by
  have cut : Framing.completeLines 10 (Mapping.file mappings) =
      mappings.map (fun (mapping, padding) => mapping.line padding) ∧
        Framing.lastLine 10 (Mapping.file mappings) = [] := by
    induction mappings with
    | nil => exact ⟨rfl, rfl⟩
    | cons entry mappings ih =>
        rcases entry with ⟨mapping, padding⟩
        have text : Mapping.file ((mapping, padding) :: mappings) =
            mapping.line padding ++ 10 :: Mapping.file mappings := by
          rw [Mapping.file, List.flatMap_cons, List.append_assoc, List.singleton_append]
          rfl
        rcases @Framing.completeLines_append_cons _ _ _ _ (Mapping.file mappings)
          (mapping.not_mem_line padding (.inl rfl)) with ⟨complete, last⟩
        rw [text, complete, last, ih.1, ih.2]
        exact ⟨rfl, rfl⟩
  rw [getlines, cut.1, cut.2, if_pos rfl, List.append_nil, List.map_map]
  rfl

theorem parseMapsPath_file (mappings : List (Mapping × Nat)) :
    (parseMapsPath (some (Mapping.file mappings))).map MapEntry.seen =
      mappings.map fun entry => (entry.1.start, entry.1.stop, entry.1.offset, entry.1.perms,
        (utf8 entry.1.path.toList).take 511) := by
  rw [parseMapsPath, getlines_file]
  induction mappings with
  | nil => rfl
  | cons entry mappings ih =>
      rcases entry with ⟨mapping, padding⟩
      rcases parseMapsLine_line mapping padding with ⟨entry, parsed, seen⟩
      rw [List.map_cons, List.filterMap_cons, parsed, List.map_cons, seen, ih]
      rfl

end Scan

/-- What the loader should find in the line of a mapping. -/
def expected (mapping : Mapping) : Nat × Nat × Nat × Nat × List UInt8 :=
  (mapping.start, mapping.stop, mapping.offset, mapping.perms, utf8 mapping.path.toList)

/-- Both parsers invert the kernel on a file: the injector line by line, the loader as a whole. -/
def Inverted (mappings : List (Mapping × Nat)) : Prop :=
  (∀ entry ∈ mappings, Injector.Maps.parseLine (entry.1.line entry.2) = some entry.1.entry) ∧
    (parseMapsPath (some (Mapping.file mappings))).map MapEntry.seen =
      mappings.map fun entry => expected entry.1

theorem parseLine_eq_entry_iff (mapping : Mapping) (padding : Nat) :
    Injector.Maps.parseLine (mapping.line padding) = some mapping.entry ↔
      mapping.path.toList.getLast? ≠ some '\r' := by
  rw [Injector.Maps.parseLine_line, ← Injector.Maps.trimEnd_eq_self_iff, Mapping.entry]
  simp

/-- They do so where no path is longer than the buffer of the loader or ends in what the injector
trims. -/
theorem maps_inverted_iff (mappings : List (Mapping × Nat)) :
    Inverted mappings ↔ ∀ entry ∈ mappings, (utf8 entry.1.path.toList).length ≤ 511 ∧
      entry.1.path.toList.getLast? ≠ some '\r' := by
  rw [Inverted, parseMapsPath_file, List.map_inj_left]
  constructor
  · rintro ⟨injector, loader⟩ entry member
    refine ⟨?_, (parseLine_eq_entry_iff entry.1 entry.2).mp (injector entry member)⟩
    have path := (Prod.mk.inj (Prod.mk.inj (Prod.mk.inj (Prod.mk.inj (loader entry member)).2).2).2).2
    exact (List.take_eq_self_iff _).mp path
  · intro clear
    refine ⟨fun entry member => (parseLine_eq_entry_iff _ _).mpr (clear entry member).2, ?_⟩
    intro entry member
    rw [expected, List.take_of_length_le (clear entry member).1]

/-- A mapping of a file whose name ends in a carriage return. -/
def returned : @Mapping Usize.eight :=
  @Mapping.mk Usize.eight 0x7f0000000000 0x7f0000001000 0 (by decide) true false true false 254 3 77
    "/data/lib\r" (by decide +kernel) (by simp) (by simp) (by simp)

/-- A mapping of a file with a name of this length. -/
def longNamed (length : Nat) (bounded : length ≤ 4095) : @Mapping Usize.eight :=
  @Mapping.mk Usize.eight 0x7f0000000000 0x7f0000001000 0 (by decide) true false true false 254 3 77
    (String.ofList (List.replicate length 'a'))
    (by
      rw [String.toList_ofList, utf8_ascii (by simp)]
      simpa using bounded)
    (by simp) (by simp)
    (by
      intro symbol head
      rw [String.toList_ofList] at head
      rw [List.eq_of_mem_replicate (List.mem_of_mem_head? head)]
      decide)

omit [Usize] in
theorem not_inverted_longNamed {length : Nat} (bounded : length ≤ 4095) (long : 511 < length) :
    ¬@Inverted Usize.eight [(longNamed length bounded, 1)] := by
  intro inverted
  have loader := inverted.2
  rw [@parseMapsPath_file Usize.eight, List.map_singleton, List.map_singleton] at loader
  have path := (Prod.mk.inj (Prod.mk.inj (Prod.mk.inj (Prod.mk.inj
    (List.singleton_inj.mp loader)).2).2).2).2
  have short := (List.take_eq_self_iff _).mp path
  rw [longNamed, String.toList_ofList, utf8_ascii (by simp), length_octets,
    List.length_replicate] at short
  omega

omit [Usize] in
theorem maps_not_inverted :
    ¬@Inverted Usize.eight [(returned, 1)] ∧
      ¬@Inverted Usize.eight [(longNamed 512 (by decide), 1)] := by
  constructor
  · intro inverted
    have whole := (@parseLine_eq_entry_iff Usize.eight returned 1).mp
      (inverted.1 (returned, 1) List.mem_cons_self)
    exact whole (by decide)
  · exact not_inverted_longNamed _ (by decide)

end Znn.Loader.Maps
