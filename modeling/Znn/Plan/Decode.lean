import Znn.Bytes.Order

/-!
# The boot plan decoder

The loader's side of the boot plan: `parsePlan` of the loader. The plan is a pointer into
memory the injector filled, so the reads below are reads of `raw`, the bytes that are
readable from that pointer on; a read past them is `ParseError.fault`, which no branch of
the source reports.
-/

namespace Znn.Loader

open Bytes

def kPlanMagic : UInt32 := 0x5A4E4E31
def kPlanVersion : UInt32 := 3
def kPlanModuleCompanion : UInt32 := (1 : UInt32) <<< (0 : UInt32)
def kPlanMaxModules : Nat := 32
def kPlanMaxBytes : Nat := 32 * 1024
def kPlanHeaderSize : Nat := 60
def kPlanModuleSize : Nat := 20
def kMinPlanBytes : Nat := kPlanHeaderSize

/-- `module::PlanModule`, with the initial values of its declaration. -/
structure PlanModule where
  fd : Int32 := -1
  companion : Bool := false
  index : UInt32 := 0
  path : List UInt8 := []
deriving DecidableEq, Repr

/-- `module::Plan`, with the initial values of its declaration. -/
structure Plan where
  modules : List PlanModule := []
  inlineEngine : List UInt8 := []
  pltEngine : List UInt8 := []
  debugdata : List UInt8 := []
  nonce : UInt32 := 0
  token : List UInt8 := List.replicate 16 0
deriving DecidableEq, Repr

/-- `ipc::PlanString`. -/
structure PlanString where
  offset : UInt32
  length : UInt32
deriving DecidableEq, Repr

/-- Why `parsePlan` returns false. -/
inductive ParseError where
  | fault
  | noPlan
  | badMagic (magic : UInt32)
  | unsupportedVersion (version : UInt32)
  | implausibleSize (size : UInt32)
  | tooManyModules (count : UInt32)
  | modulesDoNotFit (count size : UInt32)
  | optionNamesOutOfBounds
  | noLibraryDescriptor (module : Nat)
  | implausibleIndex (module : Nat) (index : UInt32)
  | pathOutOfBounds (module : Nat)
deriving DecidableEq, Repr

/-- The line `LOGE` prints for an error; a null plan is refused in silence. -/
def ParseError.message : ParseError → Option String
  | .fault | .noPlan => none
  | .badMagic magic => some s!"boot plan: bad magic 0x{String.ofList (Nat.toDigits 16 magic.toNat)}"
  | .unsupportedVersion version => some s!"boot plan: unsupported version {version}"
  | .implausibleSize size => some s!"boot plan: implausible size {size}"
  | .tooManyModules count => some s!"boot plan: {count} modules is more than we accept"
  | .modulesDoNotFit count size => some s!"boot plan: {count} modules do not fit in {size} bytes"
  | .optionNamesOutOfBounds => some "boot plan: option names are out of bounds"
  | .noLibraryDescriptor module => some s!"boot plan: module {module} has no library descriptor"
  | .implausibleIndex module index =>
      some s!"boot plan: module {module} has an implausible index {index}"
  | .pathOutOfBounds module => some s!"boot plan: module {module} path is out of bounds"

/-- Four bytes of the plan as a `uint32_t`. -/
def readWord (order : Order) (raw : List UInt8) (offset : Nat) : Except ParseError UInt32 :=
  if offset + 4 ≤ raw.length then
    .ok (order.ofWord ((raw.drop offset).take 4))
  else
    .error .fault

/-- A `PlanString` is two words. -/
def readPlanString (order : Order) (raw : List UInt8) (offset : Nat) :
    Except ParseError PlanString := do
  let start ← readWord order raw offset
  let length ← readWord order raw (offset + 4)
  return { offset := start, length := length }

/-- `count` bytes of the plan. -/
def readBytes (raw : List UInt8) (offset count : Nat) : Except ParseError (List UInt8) :=
  if offset + count ≤ raw.length then
    .ok ((raw.drop offset).take count)
  else
    .error .fault

/-- `blobString`: `none` is its false, otherwise the new value of `out`. -/
def blobString (raw : List UInt8) (blob blobSize : Nat) (reference : PlanString)
    (out : List UInt8) : Except ParseError (Option (List UInt8)) := do
  if reference.length = 0 then
    return some out
  let offset := reference.offset.toNat
  let length := reference.length.toNat
  if offset > blobSize ∨ length > blobSize - offset then
    return none
  let last := offset + length
  if last ≥ blobSize then
    return none
  let terminator ← readBytes raw (blob + last) 1
  if terminator ≠ [0] then
    return none
  let value ← readBytes raw (blob + offset) length
  return some value

/-- The loop over the module records, from record `i` on; `remaining` records are left. -/
def parseModules (order : Order) (raw : List UInt8) (blob blobSize : Nat) :
    (remaining i : Nat) → List PlanModule → Except ParseError (List PlanModule)
  | 0, _, modules => .ok modules
  | remaining + 1, i, modules => do
      let record := kMinPlanBytes + kPlanModuleSize * i
      let fd ← readWord order raw record
      let flags ← readWord order raw (record + 4)
      let index ← readWord order raw (record + 8)
      let reference ← readPlanString order raw (record + 12)
      let m : PlanModule := {}
      let m := { m with fd := fd.toInt32 }
      let m := { m with companion := decide (flags &&& kPlanModuleCompanion ≠ 0) }
      let m := { m with index := index }
      if m.fd < (0 : Int32) then
        throw (.noLibraryDescriptor i)
      if m.index.toNat ≥ kPlanMaxModules then
        throw (.implausibleIndex i m.index)
      let some path ← blobString raw blob blobSize reference m.path
        | throw (.pathOutOfBounds i)
      let m := { m with path := path }
      parseModules order raw blob blobSize remaining (i + 1) (modules ++ [m])

/-- `parsePlan`; `none` is the null pointer. -/
def parsePlan (order : Order) (plan : Option (List UInt8)) : Except ParseError Plan := do
  let some raw := plan
    | throw .noPlan
  let magic ← readWord order raw 0
  let version ← readWord order raw 4
  let size ← readWord order raw 8
  let moduleCount ← readWord order raw 12
  let nonce ← readWord order raw 16
  let token ← readBytes raw 20 16
  let inlineEngine ← readPlanString order raw 36
  let pltEngine ← readPlanString order raw 44
  let debugdata ← readPlanString order raw 52
  if magic ≠ kPlanMagic then
    throw (.badMagic magic)
  if version ≠ kPlanVersion then
    throw (.unsupportedVersion version)
  if size.toNat < kMinPlanBytes ∨ size.toNat > kPlanMaxBytes then
    throw (.implausibleSize size)
  if moduleCount.toNat > kPlanMaxModules then
    throw (.tooManyModules moduleCount)
  let records := moduleCount.toNat * kPlanModuleSize
  if kMinPlanBytes + records > size.toNat then
    throw (.modulesDoNotFit moduleCount size)
  let blob := kMinPlanBytes + records
  let blobSize := size.toNat - kMinPlanBytes - records
  let out : Plan := {}
  let out := { out with nonce := nonce, token := token }
  let some inlineEngine ← blobString raw blob blobSize inlineEngine out.inlineEngine
    | throw .optionNamesOutOfBounds
  let some pltEngine ← blobString raw blob blobSize pltEngine out.pltEngine
    | throw .optionNamesOutOfBounds
  let some debugdata ← blobString raw blob blobSize debugdata out.debugdata
    | throw .optionNamesOutOfBounds
  let modules ← parseModules order raw blob blobSize moduleCount.toNat 0 []
  return { out with
    modules := modules
    inlineEngine := inlineEngine
    pltEngine := pltEngine
    debugdata := debugdata }

end Znn.Loader
