import Znn.Bytes.Order

/-!
# The boot plan encoder

The injector's side of the boot plan: `Plan::encode` of the injector writes a header of
fixed size, one record per module and a blob of NUL-terminated strings that header and
records refer to by offset and length. Numbers are laid out in the host's order, which the
loader shares because it runs on the same machine.
-/

namespace Znn.Injector

open Bytes

def PLAN_MAGIC : UInt32 := 0x5A4E4E31
def PLAN_VERSION : UInt32 := 3
def MODULE_COMPANION : UInt32 := (1 : UInt32) <<< (0 : UInt32)
def MAX_MODULES : Nat := 32
def MAX_BYTES : Nat := 32 * 1024
def HEADER_SIZE : Nat := 60
def MODULE_SIZE : Nat := 20

/-- One module library of a plan. -/
structure PlanModule where
  index : UInt32
  path : String
  companion : Bool
  fd : Int32
deriving DecidableEq, Repr

/-- A module whose library has not been opened in the target yet. -/
def PlanModule.new (index : UInt32) (path : String) (companion : Bool) : PlanModule where
  index := index
  path := path
  companion := companion
  fd := -1

/-- What the injector hands over to the loader. -/
structure Plan where
  modules : List PlanModule
  inlineEngine : String
  pltEngine : String
  debugdata : String
  nonce : UInt32
  token : Vector UInt8 16
deriving DecidableEq, Repr

/-- The UTF-8 bytes of a string. -/
def asBytes (value : String) : List UInt8 :=
  value.toByteArray.data.toList

/-- A string of the blob: its offset and its length, without the terminator. -/
abbrev StringRef : Type := UInt32 × UInt32

/-- Append `value` and a terminator; the casts to 32 bits wrap. -/
def pushString (blob : List UInt8) (value : String) : List UInt8 × StringRef :=
  let offset := UInt32.ofNat blob.length
  let blob := blob ++ asBytes value
  let blob := blob ++ [0]
  (blob, offset, UInt32.ofNat (asBytes value).length)

/-- `push_string` for each path in turn, the references collected. -/
def pushStrings (blob : List UInt8) : List String → List UInt8 × List StringRef
  | [] => (blob, [])
  | value :: rest =>
      let (blob, reference) := pushString blob value
      let (blob, references) := pushStrings blob rest
      (blob, reference :: references)

def pushU32 (order : Order) (out : List UInt8) (value : UInt32) : List UInt8 :=
  out ++ order.word value

def pushStringRef (order : Order) (out : List UInt8) (reference : StringRef) : List UInt8 :=
  pushU32 order (pushU32 order out reference.1) reference.2

/-- Append one module record. -/
def pushModule (order : Order) (out : List UInt8) (entry : PlanModule × StringRef) : List UInt8 :=
  let (module, path) := entry
  let flags := if module.companion then 0 ||| MODULE_COMPANION else 0
  let out := out ++ order.word module.fd.toUInt32
  let out := pushU32 order out flags
  let out := pushU32 order out module.index
  pushStringRef order out path

/-- `Plan::encode`. -/
def Plan.encode (order : Order) (plan : Plan) : Option (List UInt8) :=
  if plan.modules.length > MAX_MODULES then
    none
  else if plan.modules.any fun module => decide (module.index.toNat ≥ MAX_MODULES) then
    none
  else
    let (blob, inline) := pushString [] plan.inlineEngine
    let (blob, plt) := pushString blob plan.pltEngine
    let (blob, debugdata) := pushString blob plan.debugdata
    let (blob, paths) := pushStrings blob (plan.modules.map PlanModule.path)
    let size := HEADER_SIZE + MODULE_SIZE * plan.modules.length + blob.length
    if size > MAX_BYTES then
      none
    else
      let out := pushU32 order [] PLAN_MAGIC
      let out := pushU32 order out PLAN_VERSION
      let out := pushU32 order out (UInt32.ofNat size)
      let out := pushU32 order out (UInt32.ofNat plan.modules.length)
      let out := pushU32 order out plan.nonce
      let out := out ++ plan.token.toList
      let out := pushStringRef order out inline
      let out := pushStringRef order out plt
      let out := pushStringRef order out debugdata
      let out := (plan.modules.zip paths).foldl (pushModule order) out
      some (out ++ blob)

/-- `Plan::companions`: the modules that want a helper. -/
def Plan.companions (plan : Plan) : List PlanModule :=
  plan.modules.filter PlanModule.companion

end Znn.Injector
