import Znn.Injector.Config
import Znn.Injector.Events
import Znn.Injector.Kpm
import Znn.Interaction.Threads

/-!
# Setting an option

`config_set` reads the configuration, changes the option it was told to and replaces the file.
Nothing keeps two commands from doing so at once: what one of them sets is kept as long as every
command replaces the configuration that it has read.
-/

namespace Znn.Injector

open Interaction

namespace Config

namespace HookConfig

/-- `HookConfig::options`. -/
def options [Build] (kind : String) : Option (List String) :=
  match kind with
  | "inline" => some (inlineHookOptions Build.abi)
  | "plt" => some (pltHookOptions Build.abi)
  | "mode" => some trackingModeOptions
  | "debugdata" => some debugdataOptions
  | "disable-zn" => some disableZnOptions
  | _ => none

/-- `HookConfig::set`. -/
def set (config : HookConfig) (kind value : String) : HookConfig :=
  match kind with
  | "inline" => { config with inlineHook := value }
  | "plt" => { config with pltHook := value }
  | "mode" => { config with mode := value }
  | "debugdata" => { config with debugdata := value }
  | "disable-zn" => { config with disableZn := value }
  | _ => config

/-- What a configuration holds for a kind. -/
def get (config : HookConfig) (kind : String) : String :=
  match kind with
  | "inline" => config.inlineHook
  | "plt" => config.pltHook
  | "mode" => config.mode
  | "debugdata" => config.debugdata
  | "disable-zn" => config.disableZn
  | _ => ""

/-- The lines that `write` formats. -/
def lines (config : HookConfig) : List String :=
  ["inline_hook" ++ "=" ++ config.inlineHook, "plt_hook" ++ "=" ++ config.pltHook,
    "mode" ++ "=" ++ config.mode, "debugdata" ++ "=" ++ config.debugdata,
    "disable_zn" ++ "=" ++ config.disableZn]

def contents (config : HookConfig) : String :=
  String.join (config.lines.map fun line => line ++ "\n")

/-- Every option holds one of its values. -/
structure Valid [Build] (config : HookConfig) : Prop where
  inlineHook : config.inlineHook ∈ inlineHookOptions Build.abi
  pltHook : config.pltHook ∈ pltHookOptions Build.abi
  mode : config.mode ∈ trackingModeOptions
  debugdata : config.debugdata ∈ debugdataOptions
  disableZn : config.disableZn ∈ disableZnOptions

/-- The line of a key, as the file is read. -/
def store (stored : HookConfig) (key value : String) : HookConfig :=
  if key = "inline_hook" then { stored with inlineHook := value }
  else if key = "plt_hook" then { stored with pltHook := value }
  else if key = "mode" then { stored with mode := value }
  else if key = "debugdata" then { stored with debugdata := value }
  else if key = "disable_zn" then { stored with disableZn := value }
  else stored

end HookConfig

/-- The configuration in effect when the file reads so. -/
def effectiveOf [Build] (file : FileText) : HookConfig :=
  let config := defaults Build.abi
  match file with
  | .text contents =>
      let stored := (Targets.lines contents).foldl storeLine
        { inlineHook := "", pltHook := "", mode := "", debugdata := "", disableZn := "" }
      { inlineHook := choose (inlineHookOptions Build.abi) stored.inlineHook config.inlineHook
        pltHook := choose (pltHookOptions Build.abi) stored.pltHook config.pltHook
        mode := choose trackingModeOptions stored.mode config.mode
        debugdata := choose debugdataOptions stored.debugdata config.debugdata
        disableZn := choose disableZnOptions stored.disableZn config.disableZn }
  | .notFound | .failed => config

section Reading

variable [Build] {config : HookConfig}

theorem effective_eq :
    effective = (perform (.readToString CONFIG_FILE)).bind fun file => .pure (effectiveOf file) := by
  change Prog.call _ _ = Prog.call _ _
  congr
  funext file
  cases file <;> rfl

omit [Build] in
theorem choose_mem {options : List String} {stored default : String} (isOption : default ∈ options) :
    choose options stored default ∈ options := by
  unfold choose
  split
  case isTrue present => exact present
  case isFalse => exact isOption

theorem valid_defaults : (defaults Build.abi).Valid := by
  refine ⟨?_, ?_, ?_, ?_, ?_⟩
  · cases h : Build.abi <;> decide
  · cases h : Build.abi <;> decide
  · exact List.mem_cons_self
  · exact List.mem_cons_self
  · exact List.mem_cons_self

theorem valid_effectiveOf (file : FileText) : (effectiveOf file).Valid := by
  have default := valid_defaults
  cases file with
  | text contents =>
      exact ⟨choose_mem default.inlineHook, choose_mem default.pltHook, choose_mem default.mode,
        choose_mem default.debugdata, choose_mem default.disableZn⟩
  | notFound => exact default
  | failed => exact default

theorem HookConfig.Valid.set {kind value : String} {options : List String}
    (valid : config.Valid) (isKind : HookConfig.options kind = some options)
    (isOption : value ∈ options) : (config.set kind value).Valid := by
  unfold HookConfig.options at isKind
  split at isKind
  case h_6 => cases isKind
  all_goals cases isKind
  · exact { valid with inlineHook := isOption }
  · exact { valid with pltHook := isOption }
  · exact { valid with mode := isOption }
  · exact { valid with debugdata := isOption }
  · exact { valid with disableZn := isOption }

/-- What was set is there. -/
theorem get_set_self {kind value : String} {options : List String}
    (isKind : HookConfig.options kind = some options) : (config.set kind value).get kind = value := by
  unfold HookConfig.options at isKind
  split at isKind
  case h_6 => cases isKind
  all_goals rfl

omit [Build] in
/-- The other options stay as they are. -/
theorem get_set_of_ne {kind other value : String} (apart : other ≠ kind) :
    (config.set kind value).get other = config.get other := by
  unfold HookConfig.set
  split
  case h_6 => rfl
  all_goals
    unfold HookConfig.get
    split
    all_goals first | rfl | exact absurd rfl apart

omit [Build] in
/-- A line that was written for a key stores its value. -/
theorem storeLine_eq (stored : HookConfig) {key value : String} (bare : '=' ∉ key.toList)
    (named : key.toList.head? ≠ some '#') (clear : '\n' ∉ value.toList ∧ '\r' ∉ value.toList) :
    storeLine stored (key ++ "=" ++ value) = stored.store key value := by
  have line : (key ++ "=" ++ value).toList = key.toList ++ '=' :: value.toList := by
    rw [String.toList_append, String.toList_append, List.append_assoc]
    rfl
  have trimmed : Targets.trimLineEnd (key ++ "=" ++ value) = key ++ "=" ++ value := by
    apply String.toList_injective
    rw [Targets.trimLineEnd, String.toList_ofList, line]
    have same : (key.toList ++ '=' :: value.toList).reverse.dropWhile
        (fun c => c == '\n' || c == '\r') = (key.toList ++ '=' :: value.toList).reverse := by
      rw [List.reverse_append, List.reverse_cons]
      cases last : value.toList.reverse with
      | nil => rfl
      | cons symbol rest =>
          have present : symbol ∈ value.toList := by
            rw [← List.mem_reverse, last]
            exact List.mem_cons_self
          have notFeed : symbol ≠ '\n' := fun same => clear.1 (same ▸ present)
          have notReturn : symbol ≠ '\r' := fun same => clear.2 (same ▸ present)
          rw [List.cons_append, List.cons_append,
            List.dropWhile_cons_of_neg (by simp [notFeed, notReturn])]
    rw [same, List.reverse_reverse]
  have unequal : ∀ symbol ∈ key.toList, decide (symbol ≠ '=') = true := by
    intro symbol present
    apply decide_eq_true
    rintro rfl
    exact bare present
  have before : (key.toList ++ '=' :: value.toList).takeWhile (· ≠ '=') = key.toList := by
    rw [List.takeWhile_append_of_pos unequal, List.takeWhile_cons_of_neg (by simp), List.append_nil]
  have behind : (key.toList ++ '=' :: value.toList).dropWhile (· ≠ '=') = '=' :: value.toList := by
    rw [List.dropWhile_append_of_pos unequal, List.dropWhile_cons_of_neg (by simp)]
  have kept : ¬((key.toList ++ '=' :: value.toList).isEmpty ∨
      (key.toList ++ '=' :: value.toList).head? = some '#' ∨
      '=' ∉ key.toList ++ '=' :: value.toList) := by
    cases start : key.toList with
    | nil => simp
    | cons symbol rest =>
        rw [start] at named
        simpa using named
  unfold storeLine
  rw [trimmed, line]
  dsimp only
  rw [if_neg kept, before, behind, List.drop_succ_cons, List.drop_zero, String.ofList_toList,
    String.ofList_toList]
  rfl

/-- No option has a line end in it. -/
def Clear (value : String) : Prop :=
  '\n' ∉ value.toList ∧ '\r' ∉ value.toList

instance (value : String) : Decidable (Clear value) :=
  inferInstanceAs (Decidable (_ ∧ _))

omit [Build] in
theorem clear_options (abi : Abi) :
    (∀ value ∈ inlineHookOptions abi, Clear value) ∧ (∀ value ∈ pltHookOptions abi, Clear value) ∧
      (∀ value ∈ trackingModeOptions, Clear value) ∧ (∀ value ∈ debugdataOptions, Clear value) ∧
        ∀ value ∈ disableZnOptions, Clear value := by
  cases abi <;> decide +kernel

theorem lines_contents (valid : config.Valid) :
    Targets.lines config.contents = config.lines := by
  have options := clear_options Build.abi
  have joined : config.contents = String.ofList
      ((config.lines.map String.toList).flatMap fun piece => piece ++ ['\n']) := by
    have feed : "\n".toList = ['\n'] := rfl
    apply String.toList_injective
    rw [HookConfig.contents, String.toList_join, String.toList_ofList, List.flatMap_map,
      List.flatMap_map]
    simp only [String.toList_append, feed]
  rw [joined, KpmTracker.lines_joined, List.map_map]
  · simp [HookConfig.lines]
  · intro piece member
    rcases List.mem_map.mp member with ⟨line, isLine, rfl⟩
    have written : ∃ key value, line = key ++ "=" ++ value ∧ Clear key ∧ Clear value := by
      simp only [HookConfig.lines, List.mem_cons, List.not_mem_nil, or_false] at isLine
      rcases isLine with rfl | rfl | rfl | rfl | rfl
      · exact ⟨_, _, rfl, by decide, options.1 _ valid.inlineHook⟩
      · exact ⟨_, _, rfl, by decide, options.2.1 _ valid.pltHook⟩
      · exact ⟨_, _, rfl, by decide, options.2.2.1 _ valid.mode⟩
      · exact ⟨_, _, rfl, by decide, options.2.2.2.1 _ valid.debugdata⟩
      · exact ⟨_, _, rfl, by decide, options.2.2.2.2 _ valid.disableZn⟩
    rcases written with ⟨key, value, rfl, clearKey, clearValue⟩
    simp only [String.toList_append, List.mem_append, not_or]
    exact ⟨⟨⟨clearKey.1, by decide⟩, clearValue.1⟩, ⟨clearKey.2, by decide⟩, clearValue.2⟩

/-- What is written is what is in effect when it is read. -/
theorem effectiveOf_contents (valid : config.Valid) :
    effectiveOf (.text config.contents) = config := by
  have options := clear_options Build.abi
  have stored : (Targets.lines config.contents).foldl storeLine
      { inlineHook := "", pltHook := "", mode := "", debugdata := "", disableZn := "" } =
        config := by
    rw [lines_contents valid, HookConfig.lines]
    simp only [List.foldl_cons, List.foldl_nil]
    rw [storeLine_eq _ (by decide) (by decide) (options.1 _ valid.inlineHook),
      storeLine_eq _ (by decide) (by decide) (options.2.1 _ valid.pltHook),
      storeLine_eq _ (by decide) (by decide) (options.2.2.1 _ valid.mode),
      storeLine_eq _ (by decide) (by decide) (options.2.2.2.1 _ valid.debugdata),
      storeLine_eq _ (by decide) (by decide) (options.2.2.2.2 _ valid.disableZn)]
    rfl
  unfold effectiveOf
  dsimp only
  rw [stored]
  simp only [choose, valid.inlineHook, valid.pltHook, valid.mode, valid.debugdata, valid.disableZn,
    if_true]

end Reading

end Config

namespace Ctl

open Config

/-- The requests of a control command. -/
inductive Call where
  | system (request : Injector.Call)
  | createDirAll (path : String)
  | replaceFile (path contents : String)
  | applyNow (disable : Bool)
  | daemonPid
  | kill (pid : Pid) (signal : Int)
  | printJson (config : HookConfig)

abbrev Call.Answer : Call → Type
  | .system request => request.Answer
  | .daemonPid => Option Pid
  | _ => Bool

abbrev Sys : Interface where
  Call := Call
  Answer := Call.Answer

abbrev perform (request : Call) : Prog Sys request.Answer :=
  Prog.perform (I := Sys) request

/-- A part of the injector, run by a command. -/
abbrev lift {α : Type} (program : Prog Injector.Sys α) : Prog Sys α :=
  program.via fun request => perform (.system request)

def STATE_DIR : String := "/data/adb/zygisknextsu"
def SIGHUP : Int := 1

/-- `config::write`. -/
def write (config : HookConfig) : Prog Sys Bool := do
  let _ ← perform (.createDirAll STATE_DIR)
  perform (.replaceFile CONFIG_FILE config.contents)

/-- The daemon is told, and the configuration is printed. -/
def report (updated : HookConfig) : Prog Sys Int := do
  if let some pid ← perform .daemonPid then
    let _ ← perform (.kill pid SIGHUP)
  return if ← perform (.printJson updated) then 0 else 1

/-- The end of `config_set`, once the file is replaced. -/
def announce (kind value : String) (updated : HookConfig) : Prog Sys Int := do
  if kind = "disable-zn" then
    let _ ← perform (.applyNow (value = "true"))
  report updated

/-- `config_set`. -/
def configSet [Build] (arguments : List String) : Prog Sys Int := do
  let [kind, value] := arguments
    | return 1
  let some options := HookConfig.options kind
    | return 1
  if value ∉ options then
    return 1
  let updated := (← lift effective).set kind value
  if !(← write updated) then
    return 1
  announce kind value updated

/-- The files. -/
abbrev Disk : Type := String → FileText

/-- A file is read and replaced in one step each. Both may fail, and leave it as it is. -/
def machine : Machine Sys Disk where
  Step before request answer after :=
    match request, answer with
    | .system (.readToString path), file => (file = before path ∨ file = .failed) ∧ after = before
    | .replaceFile path contents, true => after = Function.update before path (.text contents)
    | _, _ => after = before

/-- The file system stays as it is unless a file is replaced. -/
theorem same_of_step {before after : Disk} {request : Call} {answer : request.Answer}
    (step : machine.Step before request answer after)
    (other : ∀ path contents,
      (⟨request, answer⟩ : Exchange Sys) ≠ ⟨.replaceFile path contents, true⟩) :
    after = before := by
  cases request with
  | system request =>
      cases request with
      | readToString path => exact step.2
      | _ => exact step
  | replaceFile path contents =>
      cases answer with
      | true => exact absurd rfl (other path contents)
      | false => exact step
  | _ => exact step

section Commands

variable [Build]

/-- The command reads the file, and what it writes is what it read with its own option changed. -/
theorem configSet_eq (kind value : String) :
    configSet [kind, value] =
      match HookConfig.options kind with
      | none => .pure 1
      | some options =>
          if value ∉ options then .pure 1
          else (perform (.system (.readToString CONFIG_FILE))).bind fun file =>
            let updated := (effectiveOf file).set kind value
            (write updated).bind fun written =>
              if !written then .pure 1 else announce kind value updated := by
  unfold configSet
  dsimp only
  cases HookConfig.options kind with
  | none => rfl
  | some options =>
      dsimp only
      rw [effective_eq]
      rfl

/-- A request that leaves the files as they are. -/
def Leaves (request : Call) : Prop :=
  ∀ path contents, request ≠ .replaceFile path contents

omit [Build] in
theorem all_report (updated : HookConfig) : (report updated).All Leaves := by
  refine ⟨nofun, ?_⟩
  intro daemon
  cases daemon with
  | none => exact ⟨nofun, fun _ => trivial⟩
  | some pid => exact ⟨nofun, fun _ => ⟨nofun, fun _ => trivial⟩⟩

omit [Build] in
theorem all_announce (kind value : String) (updated : HookConfig) :
    (announce kind value updated).All Leaves := by
  unfold announce
  split
  · exact ⟨nofun, fun _ => all_report updated⟩
  · exact all_report updated

/-- Whatever a command replaces, it has read the configuration before. -/
theorem asks_configSet (kind value : String) :
    (configSet [kind, value]).Asks fun made request => ∀ path contents,
      request = .replaceFile path contents → path = CONFIG_FILE ∧ ∃ options file,
        HookConfig.options kind = some options ∧ value ∈ options ∧
          ⟨.system (.readToString CONFIG_FILE), file⟩ ∈ made ∧
            contents = ((effectiveOf file).set kind value).contents := by
  rw [configSet_eq]
  cases isKind : HookConfig.options kind with
  | none => trivial
  | some options =>
      dsimp only
      split
      case isTrue => trivial
      case isFalse isOption =>
        refine ⟨fun path contents => nofun, fun file => ⟨fun path contents => nofun, ?_⟩⟩
        intro created
        refine ⟨?_, ?_⟩
        · rintro path contents ⟨⟩
          exact ⟨rfl, options, file, rfl, not_not.mp isOption, by simp, rfl⟩
        · intro written
          cases written with
          | false => trivial
          | true =>
              apply Prog.Asks.mono (Prog.All.asks (all_announce kind value _))
              intro made request other path contents same
              exact absurd same (other path contents)

/-- A command that reports success has replaced the file. -/
theorem says_configSet (kind value : String) :
    (configSet [kind, value]).Says fun result transcript => result = 0 →
      ∃ contents, ⟨.replaceFile CONFIG_FILE contents, true⟩ ∈ transcript := by
  rw [configSet_eq]
  cases HookConfig.options kind with
  | none => exact nofun
  | some options =>
      dsimp only
      split
      case isTrue => exact nofun
      case isFalse =>
        intro file created written
        cases written with
        | false => exact nofun
        | true =>
            apply Prog.says_iff_talks.mpr
            intro result transcript _ _
            exact ⟨_, .tail _ (.tail _ (.head _))⟩

end Commands

/-- The answers of a system on which nothing fails, without a daemon. -/
def prompt (request : Call) (disk : Disk) : request.Answer × Disk :=
  match request with
  | .system (.readToString path) => (disk path, disk)
  | .system request => (bare request, disk)
  | .replaceFile path contents => (true, Function.update disk path (.text contents))
  | .daemonPid => (none, disk)
  | .createDirAll _ | .applyNow _ | .kill _ _ | .printJson _ => (true, disk)

theorem sound_prompt (request : Call) (disk : Disk) :
    machine.Step disk request (prompt request disk).1 (prompt request disk).2 := by
  cases request with
  | system request =>
      cases request with
      | readToString path => exact ⟨.inl rfl, rfl⟩
      | _ => rfl
  | _ => rfl

section Runs

variable [Build] {ι : Type} [DecidableEq ι]

/-- The commands before any of them has started: each sets its kind to its value. -/
def unstarted (commands : ι → String × String) (disk : Disk) : Pool Sys ι Int Disk where
  threads i := configSet [(commands i).1, (commands i).2]
  shared := disk

/-- The runs of the commands. -/
abbrev system (commands : ι → String × String) (disk : Disk) :
    System (Pool Sys ι Int Disk) (ι × Exchange Sys) :=
  Pool.system machine (unstarted commands disk)

/-- Each command replaces the file while the configuration that it has read is in effect. -/
def UpToDate (steps : List (Pool Sys ι Int Disk × (ι × Exchange Sys))) : Prop :=
  ∀ front behind pool i path contents,
    steps = front ++ (pool, (i, ⟨.replaceFile path contents, true⟩)) :: behind →
      ∀ file, ⟨Call.system (.readToString CONFIG_FILE), file⟩ ∈ Pool.own i front →
        effectiveOf file = effectiveOf (pool.shared CONFIG_FILE)

/-- Whatever the order of the steps, the settings of commands that all succeed are in effect. -/
def AlwaysKept : Prop :=
  ∀ (ι : Type) [DecidableEq ι] (commands : ι → String × String) (disk : Disk)
    (steps : List (Pool Sys ι Int Disk × (ι × Exchange Sys))) (pool : Pool Sys ι Int Disk),
    (system commands disk).Run (unstarted commands disk) steps pool →
      Function.Injective (fun i => (commands i).1) → (∀ i, pool.threads i = .pure 0) →
        ∀ i, (effectiveOf (pool.shared CONFIG_FILE)).get (commands i).1 = (commands i).2

/-- Two settings. -/
def settings : Bool → String × String
  | true => ("mode", "proc")
  | false => ("debugdata", "xz")

omit [Build] in
theorem settings_distinct : Function.Injective fun i => (settings i).1 := by
  rintro (_ | _) (_ | _) same
  · rfl
  · exact absurd same (by decide)
  · exact absurd same (by decide)
  · rfl

/-- The commands take turns, on a system without a configuration. -/
def turns (schedule : List Bool) :
    List (Pool Sys Bool Int Disk × (Bool × Exchange Sys)) × Pool Sys Bool Int Disk :=
  Pool.exec prompt schedule ([], unstarted settings fun _ => .notFound)

theorem run_turns (schedule : List Bool) :
    (system settings fun _ => .notFound).Run (unstarted settings fun _ => .notFound)
      (turns schedule).1 (turns schedule).2 :=
  Pool.run_exec sound_prompt schedule .nil

omit [Build] in
/-- The second of two commands that have read the configuration undoes what the first has set. -/
theorem setting_lost : ¬@AlwaysKept .arm64 := by
  intro always
  let schedule := [true, false, true, true, true, true, false, false, false, false]
  have both : ∀ i, (@turns .arm64 schedule).2.threads i = .pure 0 := by
    rintro (_ | _)
    · rfl
    · rfl
  have kept := always Bool settings (fun _ => .notFound) _ _ (@run_turns .arm64 schedule)
    settings_distinct both true
  have file : (@turns .arm64 schedule).2.shared CONFIG_FILE =
      .text ((defaults .arm64).set "debugdata" "xz").contents := rfl
  have valid : @HookConfig.Valid .arm64 ((defaults .arm64).set "debugdata" "xz") :=
    @HookConfig.Valid.set .arm64 _ _ _ _ (@valid_defaults .arm64) rfl (by decide)
  rw [file, @effectiveOf_contents .arm64 _ valid] at kept
  exact absurd kept (by decide)

variable {commands : ι → String × String} {disk : Disk} {pool : Pool Sys ι Int Disk}
  {steps : List (Pool Sys ι Int Disk × (ι × Exchange Sys))}

theorem UpToDate.earlier {last : Pool Sys ι Int Disk × (ι × Exchange Sys)}
    (upToDate : UpToDate (steps ++ [last])) : UpToDate steps := by
  intro front behind pool i path contents split
  apply upToDate front (behind ++ [last]) pool i path contents
  rw [split, List.append_assoc, List.cons_append]

theorem UpToDate.snoc {last : Pool Sys ι Int Disk × (ι × Exchange Sys)} (upToDate : UpToDate steps)
    (current : ∀ path contents, last.2.2 = ⟨.replaceFile path contents, true⟩ →
      ∀ file, ⟨Call.system (.readToString CONFIG_FILE), file⟩ ∈ Pool.own last.2.1 steps →
        effectiveOf file = effectiveOf (last.1.shared CONFIG_FILE)) :
    UpToDate (steps ++ [last]) := by
  intro front behind pool i path contents split
  rcases List.eq_nil_or_concat behind with rfl | ⟨middle, final, rfl⟩
  · rcases List.append_inj' split rfl with ⟨rfl, same⟩
    rw [List.cons.injEq] at same
    rw [same.1] at current
    exact current path contents rfl
  · rw [List.concat_eq_append, ← List.cons_append, ← List.append_assoc] at split
    exact upToDate front middle pool i path contents (List.append_inj' split rfl).1

/-- Once a command has replaced the file its value is in effect. -/
theorem kept_of_replaced (run : (system commands disk).Run (unstarted commands disk) steps pool)
    (distinct : Function.Injective fun i => (commands i).1) (upToDate : UpToDate steps) (i : ι)
    (replaced : ∃ step ∈ steps, ∃ path contents, step.2 = (i, ⟨.replaceFile path contents, true⟩)) :
    (effectiveOf (pool.shared CONFIG_FILE)).get (commands i).1 = (commands i).2 := by
  induction run with
  | nil => simp at replaced
  | snoc run next ih =>
      rename_i steps before after event
      have earlier := ih upToDate.earlier
      have made := Pool.after_own run
      rcases next with ⟨isNext, step⟩
      rename_i j request next answer shared
      by_cases isReplacement : ∃ path contents,
          (⟨request, answer⟩ : Exchange Sys) = ⟨.replaceFile path contents, true⟩
      · rcases isReplacement with ⟨path, contents, same⟩
        cases same
        have asked := (made j).asks (asks_configSet _ _)
        rw [isNext] at asked
        rcases asked.1 path contents rfl with ⟨rfl, options, file, isKind, isOption, read, rfl⟩
        rw [List.append_nil] at read
        have inEffect := upToDate steps [] before j _ _ rfl file read
        have written := (valid_effectiveOf file).set isKind isOption
        cases step
        dsimp only
        rw [Function.update_self, effectiveOf_contents written]
        by_cases same : i = j
        · rw [same]
          exact get_set_self isKind
        · rw [get_set_of_ne (fun kind => same (distinct kind)), inEffect]
          apply earlier
          rcases replaced with ⟨step, present, path, contents, isStep⟩
          rcases List.mem_append.mp present with inSteps | isLast
          · exact ⟨step, inSteps, path, contents, isStep⟩
          · rw [List.mem_singleton.mp isLast] at isStep
            exact absurd (congrArg Prod.fst isStep).symm same
      · have unchanged := same_of_step step
          fun path contents same => isReplacement ⟨path, contents, same⟩
        dsimp only
        rw [unchanged]
        apply earlier
        rcases replaced with ⟨step, present, path, contents, isStep⟩
        rcases List.mem_append.mp present with inSteps | isLast
        · exact ⟨step, inSteps, path, contents, isStep⟩
        · rw [List.mem_singleton.mp isLast] at isStep
          exact absurd ⟨path, contents, congrArg Prod.snd isStep⟩ isReplacement

/-- The settings of commands that have succeeded are in effect. -/
theorem settings_kept (run : (system commands disk).Run (unstarted commands disk) steps pool)
    (distinct : Function.Injective fun i => (commands i).1) (upToDate : UpToDate steps) (i : ι)
    (succeeded : pool.threads i = .pure 0) :
    (effectiveOf (pool.shared CONFIG_FILE)).get (commands i).1 = (commands i).2 := by
  have talks := Pool.talks_of_done run succeeded
  rcases talks.of_says (says_configSet _ _) rfl with ⟨contents, present⟩
  rcases Pool.mem_own.mp present with ⟨step, inSteps, same⟩
  exact kept_of_replaced run distinct upToDate i ⟨step, inSteps, CONFIG_FILE, contents, same⟩

omit [Build] in
/-- The second of two commands reads what the first has set. -/
theorem settings_kept_in_turn :
    let ran := @turns .arm64 [true, true, true, true, true, false, false, false, false, false]
    (@effectiveOf .arm64 (ran.2.shared CONFIG_FILE)).get "mode" = "proc" ∧
      (@effectiveOf .arm64 (ran.2.shared CONFIG_FILE)).get "debugdata" = "xz" := by
  intro ran
  let build : Build := .arm64
  have start : UpToDate (ι := Bool) [] := by
    intro front behind pool i path contents split
    exact absurd split (by simp)
  have first : UpToDate (turns [true, true, true]).1 := by
    refine .snoc (.snoc (.snoc start nofun) nofun) ?_
    intro path contents _ file isRead
    rcases List.mem_cons.mp isRead with same | later
    · cases same
      rfl
    · cases List.mem_singleton.mp later
  have second : UpToDate (turns [true, true, true, true, true, false, false, false]).1 := by
    refine .snoc (.snoc (.snoc (.snoc (.snoc first nofun) nofun) nofun) nofun) ?_
    intro path contents _ file isRead
    rcases List.mem_cons.mp isRead with same | later
    · cases same
      rfl
    · cases List.mem_singleton.mp later
  have upToDate : UpToDate ran.1 := .snoc (.snoc second nofun) nofun
  have run := run_turns [true, true, true, true, true, false, false, false, false, false]
  exact ⟨settings_kept run settings_distinct upToDate true rfl,
    settings_kept run settings_distinct upToDate false rfl⟩

end Runs

end Ctl

end Znn.Injector
