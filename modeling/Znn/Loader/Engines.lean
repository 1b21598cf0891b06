import Znn.Injector.ConfigSet
import Znn.Interaction.Reach
import Znn.Loader.Debugdata
import Znn.Loader.InlineHook
import Znn.Loader.PltHook
import Znn.Plan.RoundTrip

/-!
# The engines of a process

The loader takes the names of its engines from the boot plan. A name that its own build does not
offer stands for the default of that build. The first hook or unhook of a process initializes the
engine; if that fails the default takes its place, and from then on every call of the process goes
to one and the same backend.
-/

namespace Znn.Loader

open Bytes Interaction Injector

namespace Engines

/-- A loader is built for one ABI, as the injector is. -/
abbrev Abi : Type := Config.Abi

/-- `c_str` as `strcmp` reads it. -/
def cStr (text : List UInt8) : List UInt8 :=
  text.takeWhile fun byte => byte ≠ 0

def inlineEngineName : InlineHook.Engine → String
  | .dobby => "dobby"
  | .shadowHook => "shadowhook"
  | .and64InlineHook => "and64inlinehook"
  | .fridaGum => "frida-gum"
  | .rv64Hook => "rv64hook"
  | .disable => "disable"

def pltEngineName : PltHook.PltEngine → String
  | .lsplt => "lsplt"
  | .byteHook => "bytehook"
  | .xHook => "xhook"
  | .plti => "plti"
  | .disable => "disable"

variable (abi : Abi)

def inlineEngineSupported : InlineHook.Engine → Bool
  | .dobby => abi ≠ .riscv64
  | .shadowHook => abi = .arm64 || abi = .arm
  | .and64InlineHook => abi = .arm64
  | .fridaGum => abi ≠ .riscv64
  | .rv64Hook => abi = .riscv64
  | .disable => true

def pltEngineSupported : PltHook.PltEngine → Bool
  | .lsplt => true
  | .byteHook => abi ≠ .riscv64
  | .xHook => abi ≠ .riscv64
  | .plti => true
  | .disable => true

def defaultInlineEngine : InlineHook.Engine :=
  if abi = .riscv64 then .rv64Hook else .dobby

def defaultPltEngine : PltHook.PltEngine :=
  .lsplt

/-- The engine that a name stands for, on any build. -/
def inlineEngineNamed (name : List UInt8) : Option InlineHook.Engine :=
  if name = asBytes "dobby" then some .dobby
  else if name = asBytes "shadowhook" then some .shadowHook
  else if name = asBytes "and64inlinehook" then some .and64InlineHook
  else if name = asBytes "frida-gum" then some .fridaGum
  else if name = asBytes "rv64hook" then some .rv64Hook
  else if name = asBytes "disable" then some .disable
  else none

def pltEngineNamed (name : List UInt8) : Option PltHook.PltEngine :=
  if name = asBytes "lsplt" then some .lsplt
  else if name = asBytes "bytehook" then some .byteHook
  else if name = asBytes "xhook" then some .xHook
  else if name = asBytes "plti" then some .plti
  else if name = asBytes "disable" then some .disable
  else none

def parseInlineEngine (name : List UInt8) : Option InlineHook.Engine := do
  let engine ← inlineEngineNamed (cStr name)
  if !inlineEngineSupported abi engine then
    none
  else
    some engine

def parsePltEngine (name : List UInt8) : Option PltHook.PltEngine := do
  let engine ← pltEngineNamed (cStr name)
  if !pltEngineSupported abi engine then
    none
  else
    some engine

/-- `g_inline_engine` and `g_plt_engine`. -/
structure Globals where
  inlineEngine : InlineHook.Engine
  pltEngine : PltHook.PltEngine
deriving DecidableEq, Repr

/-- The variables of a process that the loader has just been mapped into. -/
def fresh : Globals where
  inlineEngine := defaultInlineEngine abi
  pltEngine := defaultPltEngine

def setInlineEngine (globals : Globals) (engine : InlineHook.Engine) : Globals :=
  if inlineEngineSupported abi engine then { globals with inlineEngine := engine } else globals

def setPltEngine (globals : Globals) (engine : PltHook.PltEngine) : Globals :=
  if pltEngineSupported abi engine then { globals with pltEngine := engine } else globals

def resolveHookEngines (globals : Globals) (inlineName pltName : List UInt8) : Globals :=
  let inlineEngine := (parseInlineEngine abi inlineName).getD (defaultInlineEngine abi)
  let pltEngine := (parsePltEngine abi pltName).getD defaultPltEngine
  setPltEngine abi (setInlineEngine abi globals inlineEngine) pltEngine

def backendName : Debugdata.Backend → String
  | .kXz => "xz"
  | .kLzma => "lzma"

def parseBackend (name : List UInt8) : Option Debugdata.Backend :=
  if cStr name = asBytes "lzma" then some .kLzma
  else if cStr name = asBytes "xz" then some .kXz
  else none

/-- `config::resolveDebugDataBackend`, in a process that has set no backend yet. -/
def resolveDebugDataBackend (name : List UInt8) : Debugdata.Backend :=
  (parseBackend name).getD .kLzma

section Names

theorem inlineEngineNamed_name (engine : InlineHook.Engine) :
    inlineEngineNamed (cStr (asBytes (inlineEngineName engine))) = some engine := by
  cases engine <;> decide +kernel

theorem pltEngineNamed_name (engine : PltHook.PltEngine) :
    pltEngineNamed (cStr (asBytes (pltEngineName engine))) = some engine := by
  cases engine <;> decide +kernel

theorem inlineHookOptions_eq : Config.inlineHookOptions abi =
    ([.dobby, .shadowHook, .and64InlineHook, .fridaGum, .rv64Hook, .disable].filter
      (inlineEngineSupported abi)).map inlineEngineName := by
  cases abi <;> rfl

theorem pltHookOptions_eq : Config.pltHookOptions abi =
    ([.lsplt, .plti, .byteHook, .xHook, .disable].filter (pltEngineSupported abi)).map
      pltEngineName := by
  cases abi <;> rfl

/-- The injector offers the engines that a loader of its build supports. -/
theorem mem_inlineHookOptions {name : String} : name ∈ Config.inlineHookOptions abi ↔
    ∃ engine, inlineEngineName engine = name ∧ inlineEngineSupported abi engine = true := by
  rw [inlineHookOptions_eq, List.mem_map]
  constructor
  · rintro ⟨engine, present, rfl⟩
    exact ⟨engine, rfl, (List.mem_filter.mp present).2⟩
  · rintro ⟨engine, rfl, supported⟩
    refine ⟨engine, List.mem_filter.mpr ⟨?_, supported⟩, rfl⟩
    cases engine <;> simp

theorem mem_pltHookOptions {name : String} : name ∈ Config.pltHookOptions abi ↔
    ∃ engine, pltEngineName engine = name ∧ pltEngineSupported abi engine = true := by
  rw [pltHookOptions_eq, List.mem_map]
  constructor
  · rintro ⟨engine, present, rfl⟩
    exact ⟨engine, rfl, (List.mem_filter.mp present).2⟩
  · rintro ⟨engine, rfl, supported⟩
    refine ⟨engine, List.mem_filter.mpr ⟨?_, supported⟩, rfl⟩
    cases engine <;> simp

theorem defaultInlineEngine_supported :
    inlineEngineSupported abi (defaultInlineEngine abi) = true := by
  cases abi <;> rfl

/-- The engines that the loader uses for the names of two engines of any build. -/
theorem resolveHookEngines_names (globals : Globals) (inline : InlineHook.Engine)
    (plt : PltHook.PltEngine) :
    resolveHookEngines abi globals (asBytes (inlineEngineName inline))
        (asBytes (pltEngineName plt)) =
      { inlineEngine :=
          if inlineEngineSupported abi inline then inline else defaultInlineEngine abi
        pltEngine := if pltEngineSupported abi plt then plt else defaultPltEngine } := by
  simp only [resolveHookEngines, parseInlineEngine, parsePltEngine, inlineEngineNamed_name,
    pltEngineNamed_name, Option.bind_eq_bind, Option.bind_some]
  have inlineDefault := defaultInlineEngine_supported abi
  have pltDefault : pltEngineSupported abi defaultPltEngine = true := rfl
  cases inlineSupported : inlineEngineSupported abi inline <;>
    cases pltSupported : pltEngineSupported abi plt <;>
    simp [setInlineEngine, setPltEngine, inlineSupported, pltSupported, inlineDefault, pltDefault]

/-- The loader chooses among its options as the injector does among its own. -/
theorem choose_name {ε : Type} {name : ε → String} {named : List UInt8 → Option ε}
    {supported : ε → Bool} {options : List String}
    (isNamed : ∀ engine, named (cStr (asBytes (name engine))) = some engine)
    (isOption : ∀ {text : String}, text ∈ options ↔
      ∃ engine, name engine = text ∧ supported engine = true)
    (engine fallback : ε) : name (if supported engine then engine else fallback) =
      Config.choose options (name engine) (name fallback) := by
  have offered : name engine ∈ options ↔ supported engine = true := by
    rw [isOption]
    constructor
    · rintro ⟨other, same, isSupported⟩
      have sameEngine := isNamed other
      rw [same, isNamed engine] at sameEngine
      rwa [Option.some.inj sameEngine]
    · exact fun isSupported => ⟨engine, rfl, isSupported⟩
  rw [Config.choose, apply_ite name]
  simp only [offered]

theorem defaults_inlineHook :
    (Config.defaults abi).inlineHook = inlineEngineName (defaultInlineEngine abi) := by
  cases abi <;> rfl

theorem defaults_pltHook :
    (Config.defaults abi).pltHook = pltEngineName defaultPltEngine := by
  cases abi <;> rfl

theorem backendName_resolved {name : String} (isOption : name ∈ Config.debugdataOptions) :
    backendName (resolveDebugDataBackend (asBytes name)) = name := by
  have each : ∀ option ∈ Config.debugdataOptions,
      backendName (resolveDebugDataBackend (asBytes option)) = option := by
    decide +kernel
  exact each name isOption

/-- What the configuration says reaches the process through the plan: the engines that the loader
takes are those that its own build would choose for the configuration in effect, and the decoder is
the configured one. -/
theorem engines_configured [build : Config.Build] {order : Order} {plan : Injector.Plan}
    {bytes : List UInt8} (tail : List UInt8) (globals : Globals) (file : FileText)
    (inline : plan.inlineEngine = (Config.effectiveOf file).inlineHook)
    (plt : plan.pltEngine = (Config.effectiveOf file).pltHook)
    (debugdata : plan.debugdata = (Config.effectiveOf file).debugdata)
    (opened : ∀ module ∈ plan.modules, 0 ≤ module.fd) (encoded : plan.encode order = some bytes) :
    ∃ received engines, parsePlan order (some (bytes ++ tail)) = .ok received ∧
      engines = resolveHookEngines abi globals received.inlineEngine received.pltEngine ∧
      inlineEngineName engines.inlineEngine = Config.choose (Config.inlineHookOptions abi)
        (Config.effectiveOf file).inlineHook (Config.defaults abi).inlineHook ∧
      pltEngineName engines.pltEngine = Config.choose (Config.pltHookOptions abi)
        (Config.effectiveOf file).pltHook (Config.defaults abi).pltHook ∧
      (build.abi = abi →
        inlineEngineName engines.inlineEngine = (Config.effectiveOf file).inlineHook ∧
        pltEngineName engines.pltEngine = (Config.effectiveOf file).pltHook) ∧
      backendName (resolveDebugDataBackend received.debugdata) =
        (Config.effectiveOf file).debugdata := by
  have valid := Config.valid_effectiveOf file
  rcases (mem_inlineHookOptions _).mp valid.inlineHook with ⟨inlineEngine, inlineNamed, _⟩
  rcases (mem_pltHookOptions _).mp valid.pltHook with ⟨pltEngine, pltNamed, _⟩
  rcases Injector.Plan.encode_eq_some encoded with ⟨rfl, accepted⟩
  refine ⟨_, _, parsePlan_layout order plan tail accepted opened, rfl, ?_⟩
  have resolved := resolveHookEngines_names abi globals inlineEngine pltEngine
  rw [inlineNamed, ← inline, pltNamed, ← plt] at resolved
  have inlineChosen := choose_name inlineEngineNamed_name (mem_inlineHookOptions abi)
    inlineEngine (defaultInlineEngine abi)
  have pltChosen := choose_name pltEngineNamed_name (mem_pltHookOptions abi) pltEngine
    defaultPltEngine
  rw [inlineNamed, ← defaults_inlineHook] at inlineChosen
  rw [pltNamed, ← defaults_pltHook abi] at pltChosen
  simp only [Injector.Plan.received]
  rw [resolved]
  refine ⟨inlineChosen, pltChosen, ?_, ?_⟩
  · rintro rfl
    rw [inlineChosen, pltChosen, Config.choose, Config.choose, if_pos valid.inlineHook,
      if_pos valid.pltHook]
    exact ⟨rfl, rfl⟩
  · rw [debugdata]
    exact backendName_resolved valid.debugdata

theorem engines_configured_shadowhook : let _ : Config.Build := .arm64
    ∃ bytes received, parsePlan .little (some bytes) = .ok received ∧
      inlineEngineName (resolveHookEngines .arm64 (fresh .arm64) received.inlineEngine
        received.pltEngine).inlineEngine = "shadowhook" := by
  intro _
  let file : FileText := .text "inline_hook=shadowhook\n"
  have stored : (Config.effectiveOf file).inlineHook = "shadowhook" := by
    decide +kernel
  let plan : Injector.Plan := {
    modules := [{ Injector.PlanModule.new 0 "/a.so" true with fd := 5 },
      { Injector.PlanModule.new 1 "/b.so" false with fd := 7 }]
    inlineEngine := (Config.effectiveOf file).inlineHook
    pltEngine := (Config.effectiveOf file).pltHook
    debugdata := (Config.effectiveOf file).debugdata
    nonce := 1
    token := .replicate 16 0 }
  have encodes : (plan.encode .little).isSome = true := by
    decide +kernel
  rcases Option.isSome_iff_exists.mp encodes with ⟨bytes, encoded⟩
  have opened : ∀ module ∈ plan.modules, 0 ≤ module.fd := by
    decide +kernel
  rcases engines_configured .arm64 [] (fresh .arm64) file rfl rfl rfl opened encoded with
    ⟨received, _, parsed, rfl, _, _, same, _⟩
  rw [List.append_nil] at parsed
  exact ⟨bytes, received, parsed, (same rfl).1.trans stored⟩

end Names

end Engines

end Znn.Loader
