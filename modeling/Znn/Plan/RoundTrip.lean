import Mathlib.Data.List.Forall2
import Znn.Plan.Encode
import Znn.Plan.Decode

/-!
# The boot plan survives the crossing

What the injector encodes, the loader decodes: the same modules in the same order, the same
engine names, nonce and token. The encoder's output is first put into the shape header words,
token, header words, record words, blob; reading a word or a string of the blob back is then
a matter of where it stands.
-/

namespace Znn.Injector

open Bytes

/-- The number of bytes a plan takes: header, records, and every string with its terminator. -/
def Plan.encodedSize (plan : Plan) : Nat :=
  HEADER_SIZE + MODULE_SIZE * plan.modules.length +
    ((asBytes plan.inlineEngine).length + 1) + ((asBytes plan.pltEngine).length + 1) +
    ((asBytes plan.debugdata).length + 1) +
    (plan.modules.map fun module => (asBytes module.path).length + 1).sum

/-- `bytes` stands in `blob` where `reference` points, followed by a terminator. -/
def Placed (blob : List UInt8) (reference : StringRef) (bytes : List UInt8) : Prop :=
  ∃ front back, blob = front ++ (bytes ++ 0 :: back) ∧
    reference = (UInt32.ofNat front.length, UInt32.ofNat bytes.length)

theorem Placed.append {blob : List UInt8} {reference : StringRef} {bytes : List UInt8}
    (placed : Placed blob reference bytes) (more : List UInt8) :
    Placed (blob ++ more) reference bytes := by
  rcases placed with ⟨front, back, shape, refers⟩
  exact ⟨front, back ++ more, by simp [shape], refers⟩

theorem pushString_fst (blob : List UInt8) (value : String) :
    (pushString blob value).1 = blob ++ (asBytes value ++ [0]) := by
  simp [pushString]

theorem placed_pushString (blob : List UInt8) (value : String) :
    Placed (pushString blob value).1 (pushString blob value).2 (asBytes value) :=
  ⟨blob, [], pushString_fst blob value, rfl⟩

theorem pushStrings_fst (blob : List UInt8) (values : List String) :
    (pushStrings blob values).1 = blob ++ values.flatMap fun value => asBytes value ++ [0] := by
  induction values generalizing blob with
  | nil => simp [pushStrings]
  | cons value rest ih => simp [pushStrings, ih, pushString_fst]

theorem placed_pushStrings (blob : List UInt8) (values : List String) :
    List.Forall₂ (fun value reference =>
        Placed (pushStrings blob values).1 reference (asBytes value))
      values (pushStrings blob values).2 := by
  induction values generalizing blob with
  | nil => exact .nil
  | cons value rest ih =>
      refine .cons ?_ (ih _)
      rw [pushStrings, pushStrings_fst]
      exact (placed_pushString blob value).append _

/-- The five words of a module record. -/
def recordWords (entry : PlanModule × StringRef) : List UInt32 :=
  [entry.1.fd.toUInt32, if entry.1.companion then MODULE_COMPANION else 0, entry.1.index,
    entry.2.1, entry.2.2]

theorem pushModule_eq (order : Order) (out : List UInt8) (entry : PlanModule × StringRef) :
    pushModule order out entry = out ++ (recordWords entry).flatMap order.word := by
  rcases entry with ⟨module, path⟩
  cases companion : module.companion <;>
    simp [pushModule, pushStringRef, pushU32, recordWords, companion]

theorem foldl_pushModule (order : Order) (out : List UInt8)
    (entries : List (PlanModule × StringRef)) :
    entries.foldl (pushModule order) out =
      out ++ (entries.flatMap recordWords).flatMap order.word := by
  induction entries generalizing out with
  | nil => simp
  | cons entry rest ih => simp [ih, pushModule_eq]

/-- The blob of a plan and the references into it. -/
structure Strings where
  blob : List UInt8
  inline : StringRef
  plt : StringRef
  debugdata : StringRef
  paths : List StringRef

/-- The strings of a plan, as `encode` pushes them. -/
def Plan.strings (plan : Plan) : Strings :=
  let inline := pushString [] plan.inlineEngine
  let plt := pushString inline.1 plan.pltEngine
  let debugdata := pushString plt.1 plan.debugdata
  let paths := pushStrings debugdata.1 (plan.modules.map PlanModule.path)
  { blob := paths.1, inline := inline.2, plt := plt.2, debugdata := debugdata.2,
    paths := paths.2 }

theorem Plan.encodedSize_eq (plan : Plan) :
    HEADER_SIZE + MODULE_SIZE * plan.modules.length + plan.strings.blob.length =
      plan.encodedSize := by
  simp only [strings, pushStrings_fst, pushString_fst, encodedSize, List.length_append,
    List.length_flatMap, List.map_map, List.length_cons, List.length_nil, Function.comp_def,
    Nat.zero_add]
  omega

theorem Plan.placed_inline (plan : Plan) :
    Placed plan.strings.blob plan.strings.inline (asBytes plan.inlineEngine) := by
  simp only [strings, pushStrings_fst]
  rw [pushString_fst, pushString_fst _ plan.pltEngine, List.append_assoc, List.append_assoc]
  exact (placed_pushString [] plan.inlineEngine).append _

theorem Plan.placed_plt (plan : Plan) :
    Placed plan.strings.blob plan.strings.plt (asBytes plan.pltEngine) := by
  simp only [strings, pushStrings_fst]
  rw [pushString_fst _ plan.debugdata, List.append_assoc]
  exact (placed_pushString _ plan.pltEngine).append _

theorem Plan.placed_debugdata (plan : Plan) :
    Placed plan.strings.blob plan.strings.debugdata (asBytes plan.debugdata) := by
  simp only [strings, pushStrings_fst]
  exact (placed_pushString _ plan.debugdata).append _

theorem Plan.placed_paths (plan : Plan) :
    List.Forall₂ (fun path reference => Placed plan.strings.blob reference (asBytes path))
      (plan.modules.map PlanModule.path) plan.strings.paths :=
  placed_pushStrings _ _

/-- The header words before the token. -/
def Plan.headWords (plan : Plan) : List UInt32 :=
  [PLAN_MAGIC, PLAN_VERSION, UInt32.ofNat plan.encodedSize, UInt32.ofNat plan.modules.length,
    plan.nonce]

/-- The header words after the token. -/
def Plan.nameWords (plan : Plan) : List UInt32 :=
  [plan.strings.inline.1, plan.strings.inline.2, plan.strings.plt.1, plan.strings.plt.2,
    plan.strings.debugdata.1, plan.strings.debugdata.2]

/-- The words of all module records. -/
def Plan.moduleWords (plan : Plan) : List UInt32 :=
  (plan.modules.zip plan.strings.paths).flatMap recordWords

/-- The encoder's output, by parts. -/
def Plan.layout (order : Order) (plan : Plan) : List UInt8 :=
  plan.headWords.flatMap order.word ++ (plan.token.toList ++
    (plan.nameWords.flatMap order.word ++ (plan.moduleWords.flatMap order.word ++
      plan.strings.blob)))

/-- What keeps a plan from being encoded. -/
def Plan.Refused (plan : Plan) : Prop :=
  plan.modules.length > MAX_MODULES ∨
    (∃ module ∈ plan.modules, module.index.toNat ≥ MAX_MODULES) ∨
    plan.encodedSize > MAX_BYTES

theorem Plan.encode_eq_none_iff (order : Order) (plan : Plan) :
    plan.encode order = none ↔ plan.Refused := by
  simp only [encode, Refused]
  split
  · simp [*]
  · split
    · rename_i indices
      simp only [List.any_eq_true, decide_eq_true_eq] at indices
      simp [indices]
    · rename_i few indices
      have size := plan.encodedSize_eq
      simp only [strings] at size
      simp only [List.any_eq_true, decide_eq_true_eq] at indices
      simp only [few, indices, size, false_or]
      split <;> simp [*]

theorem Plan.encode_eq_some {order : Order} {plan : Plan} {bytes : List UInt8}
    (encoded : plan.encode order = some bytes) :
    bytes = plan.layout order ∧ ¬plan.Refused := by
  have accepted : ¬plan.Refused := by
    rw [← encode_eq_none_iff order, encoded]
    simp
  refine ⟨?_, accepted⟩
  have size := plan.encodedSize_eq
  simp only [encode] at encoded
  split at encoded
  · contradiction
  · split at encoded
    · contradiction
    · split at encoded
      · contradiction
      · simp only [Option.some.injEq] at encoded
        rw [← encoded, foldl_pushModule]
        simp only [strings] at size
        simp [layout, headWords, nameWords, moduleWords, strings, pushStringRef, pushU32, size]

/-! ## Reading the layout back -/

/-- A word of a run of words is read back where the run stands. -/
theorem readWord_run {order : Order} {raw front back : List UInt8} {values : List UInt32}
    (shape : raw = front ++ (values.flatMap order.word ++ back)) {index offset : Nat}
    (inside : index < values.length) (start : offset = front.length + 4 * index) :
    Loader.readWord order raw offset = .ok values[index] := by
  subst start
  have before : ((values.take index).flatMap order.word).length = 4 * index := by
    rw [Order.length_flatMap_word, List.length_take, Nat.min_eq_left (Nat.le_of_lt inside)]
  have split : raw = (front ++ (values.take index).flatMap order.word) ++
      (order.word values[index] ++ ((values.drop (index + 1)).flatMap order.word ++ back)) := by
    rw [shape, order.flatMap_word_split values index inside]
    simp only [List.append_assoc]
  have reach : (front ++ (values.take index).flatMap order.word).length =
      front.length + 4 * index := by
    rw [List.length_append, before]
  have fits : front.length + 4 * index + 4 ≤ raw.length := by
    rw [split, List.length_append, reach, List.length_append, Order.length_word]
    omega
  rw [Loader.readWord, if_pos fits, split, List.drop_left' reach,
    List.take_left' (order.length_word _), Order.ofWord_word]

theorem readBytes_at {raw bytes : List UInt8} (front back : List UInt8)
    (shape : raw = front ++ (bytes ++ back)) {offset count : Nat} (start : offset = front.length)
    (size : count = bytes.length) :
    Loader.readBytes raw offset count = .ok bytes := by
  subst start size
  have fits : front.length + bytes.length ≤ raw.length := by
    simp only [shape, List.length_append]
    omega
  rw [Loader.readBytes, if_pos fits, shape, List.drop_left, List.take_left]

/-- A placed string is read back, and an empty one leaves the fresh `out` as it is. -/
theorem blobString_of_placed {raw front blob back : List UInt8} {reference : StringRef}
    {bytes : List UInt8} (shape : raw = front ++ (blob ++ back)) (small : blob.length < 2 ^ 32)
    (placed : Placed blob reference bytes) :
    Loader.blobString raw front.length blob.length ⟨reference.1, reference.2⟩ [] =
      .ok (some bytes) := by
  rcases placed with ⟨before, after, split, rfl⟩
  have size : blob.length = before.length + (bytes.length + (1 + after.length)) := by
    simp only [split, List.length_append, List.length_cons]
    omega
  have offset : (UInt32.ofNat before.length).toNat = before.length :=
    UInt32.toNat_ofNat_of_lt' (by rw [UInt32.size]; omega)
  have length : (UInt32.ofNat bytes.length).toNat = bytes.length :=
    UInt32.toNat_ofNat_of_lt' (by rw [UInt32.size]; omega)
  rcases bytes with _ | ⟨first, rest⟩
  · simp [Loader.blobString, pure, Except.pure]
  · have nonempty : UInt32.ofNat (first :: rest).length ≠ 0 := by
      intro zero
      rw [zero] at length
      simp at length
    have terminator : Loader.readBytes raw
        (front.length + (before.length + (first :: rest).length)) 1 = .ok [0] :=
      readBytes_at (front ++ (before ++ (first :: rest))) (after ++ back)
        (by simp [shape, split]) (by simp only [List.length_append]) rfl
    have value : Loader.readBytes raw (front.length + before.length) (first :: rest).length =
        .ok (first :: rest) :=
      readBytes_at (front ++ before) (0 :: after ++ back)
        (by simp [shape, split]) (by simp only [List.length_append]) rfl
    have inside : ¬(before.length > blob.length ∨
        (first :: rest).length > blob.length - before.length) := by
      omega
    have room : ¬before.length + (first :: rest).length ≥ blob.length := by
      omega
    simp only [Loader.blobString, nonempty, offset, length, inside, room, terminator, value,
      if_false, ne_eq, not_true_eq_false, bind, Except.bind, pure, Except.pure]

/-- What the loader holds for a module of the plan. -/
def PlanModule.received (module : PlanModule) : Loader.PlanModule where
  fd := module.fd
  companion := module.companion
  index := module.index
  path := asBytes module.path

/-- What the loader holds for a plan. -/
def Plan.received (plan : Plan) : Loader.Plan where
  modules := plan.modules.map PlanModule.received
  inlineEngine := asBytes plan.inlineEngine
  pltEngine := asBytes plan.pltEngine
  debugdata := asBytes plan.debugdata
  nonce := plan.nonce
  token := plan.token.toList

/-- The record loop, by induction on the records that are left: those before it have been
read, and `front` is the plan up to the next one. -/
theorem parseModules_records {order : Order} {raw : List UInt8} {blob blobSize : Nat}
    {modules : List PlanModule} {paths : List StringRef}
    (strings : List.Forall₂ (fun path (reference : StringRef) =>
        Loader.blobString raw blob blobSize ⟨reference.1, reference.2⟩ [] =
          .ok (some (asBytes path)))
      (modules.map PlanModule.path) paths)
    (opened : ∀ module ∈ modules, 0 ≤ module.fd)
    (indices : ∀ module ∈ modules, module.index.toNat < MAX_MODULES)
    {front back : List UInt8}
    (shape : raw = front ++
      (((modules.zip paths).flatMap recordWords).flatMap order.word ++ back))
    {i : Nat} (start : front.length = HEADER_SIZE + MODULE_SIZE * i)
    (parsed : List Loader.PlanModule) :
    Loader.parseModules order raw blob blobSize modules.length i parsed =
      .ok (parsed ++ modules.map PlanModule.received) := by
  induction modules generalizing paths front i parsed with
  | nil => simp [Loader.parseModules]
  | cons module rest ih =>
      rcases paths with _ | ⟨path, paths⟩
      · cases strings
      · rcases List.forall₂_cons.mp strings with ⟨string, strings⟩
        have record : raw = front ++ ((recordWords (module, path)).flatMap order.word ++
            (((rest.zip paths).flatMap recordWords).flatMap order.word ++ back)) := by
          rw [shape]
          simp only [List.zip_cons_cons, List.flatMap_cons, List.flatMap_append,
            List.append_assoc]
        have offset : Loader.kMinPlanBytes + Loader.kPlanModuleSize * i = front.length :=
          start.symm
        have word (j : Nat) (inside : j < 5) : Loader.readWord order raw (front.length + 4 * j) =
            .ok (recordWords (module, path))[j] :=
          readWord_run record inside rfl
        have fd := word 0 (by omega)
        have flags := word 1 (by omega)
        have index := word 2 (by omega)
        have refOffset := word 3 (by omega)
        have refLength := word 4 (by omega)
        simp only [recordWords, List.getElem_cons_zero, List.getElem_cons_succ, Nat.mul_zero,
          Nat.add_zero, Nat.reduceMul] at fd flags index refOffset refLength
        have next : (front ++ (recordWords (module, path)).flatMap order.word).length =
            HEADER_SIZE + MODULE_SIZE * (i + 1) := by
          rw [List.length_append, start, Order.length_flatMap_word]
          simp only [recordWords, MODULE_SIZE, List.length_cons, List.length_nil]
          omega
        have open' : ¬module.fd < (0 : Int32) :=
          Int32.not_lt.mpr (opened module (by simp))
        have index' : ¬module.index.toNat ≥ Loader.kPlanMaxModules := by
          have := indices module (by simp)
          simp only [MAX_MODULES] at this
          simp only [Loader.kPlanMaxModules]
          omega
        have flag : decide ((if module.companion then MODULE_COMPANION else 0) &&&
            Loader.kPlanModuleCompanion ≠ 0) = module.companion := by
          cases module.companion <;> decide
        rw [List.length_cons, Loader.parseModules, offset]
        simp only [Loader.readPlanString, fd, flags, index, refOffset, refLength, string, flag,
          Nat.add_assoc, Nat.reduceAdd, Int32.toInt32_toUInt32, open', index', if_false, bind,
          Except.bind, pure, Except.pure]
        rw [ih strings (fun entry mem => opened entry (by simp [mem]))
          (fun entry mem => indices entry (by simp [mem])) (by rw [record]; simp) next]
        simp [PlanModule.received]

theorem Plan.length_paths (plan : Plan) : plan.strings.paths.length = plan.modules.length := by
  have same := plan.placed_paths.length_eq
  simpa using same.symm

theorem Plan.length_moduleWords (order : Order) (plan : Plan) :
    (plan.moduleWords.flatMap order.word).length = MODULE_SIZE * plan.modules.length := by
  have run (entries : List (PlanModule × StringRef)) :
      (entries.flatMap recordWords).length = 5 * entries.length := by
    induction entries with
    | nil => rfl
    | cons entry rest ih =>
        simp only [List.flatMap_cons, List.length_append, List.length_cons, ih, recordWords,
          List.length_nil]
        omega
  rw [Order.length_flatMap_word, moduleWords, run, List.length_zip, length_paths, Nat.min_self,
    MODULE_SIZE]
  omega

theorem Plan.length_layout (order : Order) (plan : Plan) :
    (plan.layout order).length = plan.encodedSize := by
  rw [← encodedSize_eq, layout]
  simp only [List.length_append, Order.length_flatMap_word order plan.headWords,
    Order.length_flatMap_word order plan.nameWords, length_moduleWords, Vector.length_toList]
  simp only [headWords, nameWords, HEADER_SIZE, List.length_cons, List.length_nil]
  omega

theorem Plan.length_encode_le {order : Order} {plan : Plan} {bytes : List UInt8}
    (encoded : plan.encode order = some bytes) : bytes.length ≤ MAX_BYTES := by
  rcases encode_eq_some encoded with ⟨rfl, accepted⟩
  rw [length_layout]
  simp only [Refused, not_or] at accepted
  omega

/-- The loader accepts what the injector wrote, whatever lies behind it in memory. -/
theorem parsePlan_layout (order : Order) (plan : Plan) (tail : List UInt8)
    (accepted : ¬plan.Refused) (opened : ∀ module ∈ plan.modules, 0 ≤ module.fd) :
    Loader.parsePlan order (some (plan.layout order ++ tail)) = .ok plan.received := by
  simp only [Plan.Refused, MAX_MODULES, MAX_BYTES, not_or, not_exists, not_and] at accepted
  rcases accepted with ⟨few, indices, fits⟩
  have total := plan.encodedSize_eq
  simp only [HEADER_SIZE, MODULE_SIZE] at total
  generalize raw_eq : plan.layout order ++ tail = raw
  have head : raw = [] ++ (plan.headWords.flatMap order.word ++ (plan.token.toList ++
      (plan.nameWords.flatMap order.word ++ (plan.moduleWords.flatMap order.word ++
        (plan.strings.blob ++ tail))))) := by
    rw [← raw_eq]
    simp only [Plan.layout, List.nil_append, List.append_assoc]
  have names : raw = (plan.headWords.flatMap order.word ++ plan.token.toList) ++
      (plan.nameWords.flatMap order.word ++ (plan.moduleWords.flatMap order.word ++
        (plan.strings.blob ++ tail))) := by
    rw [head]
    simp only [List.nil_append, List.append_assoc]
  have records : raw = (plan.headWords.flatMap order.word ++ (plan.token.toList ++
      plan.nameWords.flatMap order.word)) ++ (plan.moduleWords.flatMap order.word ++
        (plan.strings.blob ++ tail)) := by
    rw [head]
    simp only [List.nil_append, List.append_assoc]
  have headLength : (plan.headWords.flatMap order.word).length = 20 := by
    rw [Order.length_flatMap_word, Plan.headWords]
    rfl
  have nameStart : (plan.headWords.flatMap order.word ++ plan.token.toList).length = 36 := by
    rw [List.length_append, headLength, Vector.length_toList]
  have recordStart : (plan.headWords.flatMap order.word ++ (plan.token.toList ++
      plan.nameWords.flatMap order.word)).length = HEADER_SIZE + MODULE_SIZE * 0 := by
    rw [List.length_append, List.length_append, headLength, Vector.length_toList,
      Order.length_flatMap_word, Plan.nameWords]
    rfl
  -- The header, word by word.
  have headWord (j : Nat) (inside : j < 5) :
      Loader.readWord order raw (4 * j) = .ok plan.headWords[j] :=
    readWord_run head inside (by simp)
  have nameWord (j : Nat) (inside : j < 6) :
      Loader.readWord order raw (36 + 4 * j) = .ok plan.nameWords[j] :=
    readWord_run names inside (by rw [nameStart])
  have magic := headWord 0 (by omega)
  have version := headWord 1 (by omega)
  have size := headWord 2 (by omega)
  have count := headWord 3 (by omega)
  have nonce := headWord 4 (by omega)
  have inlineOffset := nameWord 0 (by omega)
  have inlineLength := nameWord 1 (by omega)
  have pltOffset := nameWord 2 (by omega)
  have pltLength := nameWord 3 (by omega)
  have debugOffset := nameWord 4 (by omega)
  have debugLength := nameWord 5 (by omega)
  simp only [Plan.headWords, List.getElem_cons_zero, List.getElem_cons_succ, Nat.mul_zero,
    Nat.reduceMul] at magic version size count nonce
  simp only [Plan.nameWords, List.getElem_cons_zero, List.getElem_cons_succ, Nat.mul_zero,
    Nat.add_zero, Nat.reduceMul, Nat.reduceAdd] at inlineOffset inlineLength pltOffset pltLength
  simp only [Plan.nameWords, List.getElem_cons_zero, List.getElem_cons_succ, Nat.reduceMul,
    Nat.reduceAdd] at debugOffset debugLength
  have token : Loader.readBytes raw 20 16 = .ok plan.token.toList :=
    readBytes_at _ _ (head.trans (List.nil_append _)) headLength.symm
      plan.token.length_toList.symm
  have sizeValue : (UInt32.ofNat plan.encodedSize).toNat = plan.encodedSize :=
    UInt32.toNat_ofNat_of_lt' (by rw [UInt32.size]; omega)
  have countValue : (UInt32.ofNat plan.modules.length).toNat = plan.modules.length :=
    UInt32.toNat_ofNat_of_lt' (by rw [UInt32.size]; omega)
  -- The blob lies behind the records, and every string of the plan is placed in it.
  have blob : raw = ((plan.headWords.flatMap order.word ++ (plan.token.toList ++
      plan.nameWords.flatMap order.word)) ++ plan.moduleWords.flatMap order.word) ++
        (plan.strings.blob ++ tail) := by
    rw [records]
    simp only [List.append_assoc]
  have blobStart : ((plan.headWords.flatMap order.word ++ (plan.token.toList ++
      plan.nameWords.flatMap order.word)) ++ plan.moduleWords.flatMap order.word).length =
        60 + plan.modules.length * 20 := by
    rw [List.length_append, recordStart, Plan.length_moduleWords, HEADER_SIZE, MODULE_SIZE]
    omega
  have blobSize : plan.encodedSize - 60 - plan.modules.length * 20 =
      plan.strings.blob.length := by
    omega
  have string {reference : StringRef} {bytes : List UInt8}
      (placed : Placed plan.strings.blob reference bytes) :
      Loader.blobString raw (60 + plan.modules.length * 20) plan.strings.blob.length
        ⟨reference.1, reference.2⟩ [] = .ok (some bytes) := by
    rw [← blobStart]
    exact blobString_of_placed blob (by omega) placed
  have modules : Loader.parseModules order raw (60 + plan.modules.length * 20)
      plan.strings.blob.length plan.modules.length 0 [] =
        .ok (plan.modules.map PlanModule.received) := by
    have loop := parseModules_records (plan.placed_paths.imp fun _ _ placed => string placed)
      opened (fun module mem => by have := indices module mem; simp only [MAX_MODULES]; omega)
      records recordStart []
    simpa using loop
  have sensible : ¬(plan.encodedSize < 60 ∨ plan.encodedSize > 32 * 1024) := by
    omega
  have records_fit : ¬60 + plan.modules.length * 20 > plan.encodedSize := by
    omega
  simp only [Loader.parsePlan, Loader.readPlanString, magic, version, size, count, nonce, token,
    inlineOffset, inlineLength, pltOffset, pltLength, debugOffset, debugLength, PLAN_MAGIC,
    PLAN_VERSION, Loader.kPlanMagic, Loader.kPlanVersion, Loader.kMinPlanBytes,
    Loader.kPlanHeaderSize, Loader.kPlanMaxBytes, Loader.kPlanMaxModules, Loader.kPlanModuleSize,
    sizeValue, countValue, sensible, few, records_fit, blobSize, string plan.placed_inline,
    string plan.placed_plt, string plan.placed_debugdata, modules, ne_eq, not_true_eq_false,
    if_false, bind, Except.bind, pure, Except.pure, Nat.reduceAdd]
  rfl

/-- The plan the loader reads is the plan the injector encoded, and the encoder refuses
exactly the plans over one of the three limits. -/
theorem plan_round_trip (order : Order) (plan : Plan)
    (opened : ∀ module ∈ plan.modules, 0 ≤ module.fd) :
    (∀ bytes, plan.encode order = some bytes → bytes.length = plan.encodedSize ∧
      ∀ tail, Loader.parsePlan order (some (bytes ++ tail)) = .ok plan.received) ∧
    (plan.encode order = none ↔
      plan.modules.length > 32 ∨ (∃ module ∈ plan.modules, module.index.toNat ≥ 32) ∨
        plan.encodedSize > 32768) := by
  constructor
  · intro bytes encoded
    rcases Plan.encode_eq_some encoded with ⟨rfl, accepted⟩
    exact ⟨plan.length_layout order, fun tail => parsePlan_layout order plan tail accepted opened⟩
  · exact plan.encode_eq_none_iff order

theorem plan_round_trip_two_modules :
    ∃ bytes, (Plan.mk [⟨0, "/m/a.so", true, 12⟩, ⟨1, "/m/b.so", false, 13⟩] "dobby" "lsplt" ""
        0x12345678 (Vector.replicate 16 0xAB)).encode .little = some bytes ∧
      (Loader.parsePlan .little (some bytes)).toOption.map (fun plan => plan.modules.length) =
        some 2 := by
  have crossing := plan_round_trip .little (Plan.mk
    [⟨0, "/m/a.so", true, 12⟩, ⟨1, "/m/b.so", false, 13⟩] "dobby" "lsplt" "" 0x12345678
    (Vector.replicate 16 0xAB)) (by decide)
  rcases encoded : (Plan.mk [⟨0, "/m/a.so", true, 12⟩, ⟨1, "/m/b.so", false, 13⟩] "dobby"
      "lsplt" "" 0x12345678 (Vector.replicate 16 0xAB)).encode .little with _ | bytes
  · exact absurd (crossing.2.mp encoded) (by decide)
  · have read := (crossing.1 bytes encoded).2 []
    rw [List.append_nil] at read
    exact ⟨bytes, rfl, by rw [read]; rfl⟩

end Znn.Injector
