import Znn.Injector.Records

/-!
# Restarting the daemon

`write_state_snapshot` serialises the report of the daemon into its state file; a daemon that starts
afterwards parses the file and restores the processes. The pid goes through a `u32` on the way out
and an `i64` on the way in. `serde_json` is a parameter.
-/

namespace Znn.Injector

open Interaction

def STATE_FILE : String := "/data/adb/zygisknextsu/znn_state.json"

def Tracking.asStr : Tracking → String
  | .kernel => "kernel"
  | .ptrace => "ptrace"
  | .proc => "proc"
  | .late => "late"

structure ProcessReport where
  pid : UInt32
  name : String
deriving DecidableEq, Repr

structure FailedReport where
  name : String
  reason : String
deriving DecidableEq, Repr

structure ModuleReport where
  id : String
  name : String
  version : String
  processes : List ProcessReport
  failed : List FailedReport
deriving DecidableEq, Repr

structure RootReport where
  kernelSu : String := ""
  magisk : String := ""
  apatch : String := ""
deriving DecidableEq, Repr

structure SystemReport where
  kernel : String := ""
  sdk : Int := 0
  abi : String := ""
  abilist : String := ""
  root : RootReport := {}
deriving DecidableEq, Repr

structure HookOption where
  value : String
  options : List String
deriving DecidableEq, Repr

structure HookConfigReport where
  inlineHook : HookOption
  pltHook : HookOption
  mode : HookOption
  debugdata : HookOption
  disableZn : HookOption
deriving DecidableEq, Repr

structure StateReport where
  running : Bool
  pid : UInt32
  mode : String
  version : String
  system : SystemReport
  config : HookConfigReport
  modules : List ModuleReport
deriving DecidableEq, Repr

/-- `HookConfig::report`. -/
def Config.HookConfig.report [Config.Build] (config : Config.HookConfig) : HookConfigReport where
  inlineHook := ⟨config.inlineHook, Config.inlineHookOptions Config.Build.abi⟩
  pltHook := ⟨config.pltHook, Config.pltHookOptions Config.Build.abi⟩
  mode := ⟨config.mode, Config.trackingModeOptions⟩
  debugdata := ⟨config.debugdata, Config.debugdataOptions⟩
  disableZn := ⟨config.disableZn, Config.disableZnOptions⟩

def moduleReport (module : ModuleInfo) : ModuleReport where
  id := module.id
  name := module.name
  version := module.version
  processes := module.processes.map fun record => ⟨UInt32.ofInt record.1, record.2⟩
  failed := module.failed.map fun record => ⟨record.1, record.2⟩

/-- What the report says of the daemon's own process and of the device. -/
structure Identity where
  pid : UInt32
  version : String
  system : SystemReport

def Daemon.stateReport [Config.Build] (daemon : Daemon) (identity : Identity)
    (config : Config.HookConfig) : StateReport where
  running := true
  pid := identity.pid
  mode := daemon.mode.asStr
  version := identity.version
  system := identity.system
  config := config.report
  modules := daemon.modules.map moduleReport

/-- What `Snapshot` has of a module that was serialised as `ModuleReport`. -/
def ModuleReport.snapshot (report : ModuleReport) : SnapshotModule where
  id := report.id
  processes := report.processes.map fun process => ⟨process.pid.toNat, process.name⟩

/-- `serde_json`: `to_string` of a report, and `from_str` of a snapshot. -/
structure Serde where
  toString : StateReport → Option String
  fromStr : String → Option (List SnapshotModule)

/-- What is decoded is what has been encoded. -/
def Serde.Faithful (serde : Serde) : Prop :=
  ∀ report text, serde.toString report = some text →
    serde.fromStr text = some (report.modules.map ModuleReport.snapshot)

/-- `write_state_snapshot`, as far as the state file goes. -/
def writeStateSnapshot [Config.Build] (serde : Serde) (identity : Identity) (daemon : Daemon) :
    Prog Ctl.Sys Unit := do
  let config ← Ctl.lift Config.effective
  match serde.toString (daemon.stateReport identity config) with
  | none => return
  | some json =>
      let onDisk ← Ctl.perform (.system (.readToString STATE_FILE))
      if onDisk ≠ .text json then
        let _ ← Ctl.perform (.createDirAll Ctl.STATE_DIR)
        let _ ← Ctl.perform (.replaceFile STATE_FILE json)

def readSnapshotModules (serde : Serde) : Prog Sys (Option (List SnapshotModule)) := do
  let .text contents ← perform (.readToString STATE_FILE)
    | return none
  return serde.fromStr contents

/-- `restore_processes`, with the file that it reads. -/
def Daemon.restoreFromFile (serde : Serde) : DaemonM Unit := do
  let snapshot ← readSnapshotModules serde
  restoreProcesses snapshot

/-- The processes that are there, each with what its `exe` link names. -/
structure Processes where
  exe : Pid → Option String
  positive : ∀ pid path, exe pid = some path → 0 < pid ∧ pid < 2147483648

def Processes.link (processes : Processes) (pid : Pid) : ExeLink :=
  match processes.exe pid with
  | some path => .path path
  | none => .gone

/-- A system with these files and these processes. -/
def Processes.machine (processes : Processes) (disk : Ctl.Disk) : Machine Sys Unit where
  Step _ request answer _ :=
    match request, answer with
    | .readToString path, file => file = disk path
    | .exeLink pid, link => link = processes.link pid
    | _, _ => True

/-- A system on which files can be read and replaced. -/
def Ctl.working : Machine Ctl.Sys Ctl.Disk :=
  Ctl.machine.restrict fun disk request answer =>
    match request, answer with
    | .system (.readToString path), file => file = disk path
    | .replaceFile _ _, replaced => replaced = true
    | _, _ => True

/-- `fresh` has collected the modules that `own` has, while every process that `own` has recorded is
there, with an executable that its module asks for. -/
structure Succeeds (processes : Processes) (own fresh : Daemon) : Prop where
  collected : ∃ empty transcript, empty.modules = [] ∧
    StateProg.Talks Daemon.collectTargets empty ⟨⟩ fresh transcript
  enabled : fresh.modules.map (fun module => (module.id, module.targets)) =
    own.modules.map fun module => (module.id, module.targets)
  living : ∀ module ∈ own.modules, ∀ record ∈ module.processes, ∃ path,
    processes.exe record.1 = some path ∧
      Targets.moduleMatches module (Procfs.stripDeletedSuffix path) = true

/-- The processes of every module. -/
def Modules.records (modules : Modules) : List (String × List (Pid × String)) :=
  modules.map fun module => (module.id, module.processes)

section Restoring

variable {processes : Processes} {disk : Ctl.Disk}

/-- What a record is after it has been written and parsed. -/
@[irreducible]
def reread (record : Pid × String) : SnapshotProcess :=
  ⟨(UInt32.ofInt record.1).toNat, record.2⟩

/-- A positive pid is read back as it was written. -/
theorem pidFrom_toNat {pid : Int} (above : 0 < pid) (below : pid < 2147483648) :
    pidFrom (UInt32.ofInt pid).toNat = some pid := by
  have same : ((UInt32.ofInt pid).toNat : Int) = pid := by
    have unchanged : pid % 2 ^ 32 = pid := Int.emod_eq_of_lt above.le (by omega)
    have fits : pid.toNat < UInt32.size := by
      rw [UInt32.size]
      omega
    rw [UInt32.ofInt, unchanged, UInt32.toNat_ofNat_of_lt' fits]
    exact Int.toNat_of_nonneg above.le
  rw [same, pidFrom, if_pos (by omega)]

theorem pidFrom_reread {record : Pid × String} {path : String}
    (living : processes.exe record.1 = some path) :
    pidFrom (reread record).pid = some record.1 := by
  have positive := processes.positive record.1 path living
  rw [reread]
  exact pidFrom_toNat positive.1 positive.2

theorem wp_processGone {pid : Pid} {path : String} (living : processes.exe pid = some path) :
    (Procfs.processGone pid).wp (processes.machine disk) (fun gone _ => gone = false) () := by
  rintro link _ answered
  have isLink : link = processes.link pid := answered
  rw [isLink, Processes.link, living]
  rfl

theorem wp_readExePath {pid : Pid} {path : String} (living : processes.exe pid = some path) :
    (Procfs.readExePath pid).wp (processes.machine disk)
      (fun exe _ => exe = Procfs.stripDeletedSuffix path) () := by
  rintro link _ answered
  have isLink : link = processes.link pid := answered
  rw [isLink, Processes.link, living]
  rfl

/-- The record of a living process is appended. -/
theorem wp_restore {module : ModuleInfo} {recorded : SnapshotProcess} {pid : Pid} {path : String}
    (isPid : pidFrom recorded.pid = some pid) (new : pid ∉ module.processes.map Prod.fst)
    (living : processes.exe pid = some path)
    (isMatch : Targets.moduleMatches module (Procfs.stripDeletedSuffix path) = true) :
    (module.restore recorded).wp (processes.machine disk) (fun result _ =>
      result = { module with processes := module.processes ++ [(pid, recorded.name)] }) () := by
  have unknown : ¬(module.processes.any fun known => known.1 == pid) = true := by
    intro known
    rcases List.any_eq_true.mp known with ⟨other, member, same⟩
    exact new (List.mem_map.mpr ⟨other, member, eq_of_beq same⟩)
  unfold ModuleInfo.restore
  rw [isPid]
  dsimp only
  rw [if_neg unknown, Prog.bind_eq, Prog.wp_bind]
  apply Prog.wp_mono (wp_processGone living)
  rintro gone ⟨⟩ rfl
  rw [if_neg Bool.false_ne_true, Prog.bind_eq, Prog.wp_bind]
  apply Prog.wp_mono (wp_readExePath living)
  rintro exe ⟨⟩ rfl
  rw [if_neg (by simp [isMatch])]
  rfl

theorem wp_restore_reread {module : ModuleInfo} {record : Pid × String}
    (new : record.1 ∉ module.processes.map Prod.fst)
    (living : ∃ path, processes.exe record.1 = some path ∧
      Targets.moduleMatches module (Procfs.stripDeletedSuffix path) = true) :
    (module.restore (reread record)).wp (processes.machine disk)
      (fun result _ => result = { module with processes := module.processes ++ [record] }) () := by
  rcases living with ⟨path, isThere, isMatch⟩
  have sameName : (reread record).name = record.2 := by rw [reread]
  have restored := @wp_restore processes disk _ _ _ _ (pidFrom_reread isThere) new isThere isMatch
  rwa [sameName] at restored

/-- The records of one module are restored in their order. -/
theorem wp_restoreEach {module : ModuleInfo} {records : List (Pid × String)}
    (nodup : ((module.processes ++ records).map Prod.fst).Nodup)
    (living : ∀ record ∈ records, ∃ path, processes.exe record.1 = some path ∧
      Targets.moduleMatches module (Procfs.stripDeletedSuffix path) = true) :
    (module.restoreEach (records.map reread)).wp (processes.machine disk)
      (fun result _ => result = { module with processes := module.processes ++ records }) () := by
  induction records generalizing module with
  | nil =>
      rw [List.append_nil]
      rfl
  | cons record records ih =>
      have new : record.1 ∉ module.processes.map Prod.fst := by
        intro member
        rw [List.map_append, List.nodup_append] at nodup
        have other : record.1 ∈ (record :: records).map Prod.fst :=
          List.mem_map_of_mem List.mem_cons_self
        exact nodup.2.2 record.1 member record.1 other rfl
      have first := @wp_restore_reread processes disk _ _ new (living record List.mem_cons_self)
      rw [List.map_cons, ModuleInfo.restoreEach, Prog.bind_eq, Prog.wp_bind]
      apply Prog.wp_mono first
      rintro middle ⟨⟩ rfl
      have nodup' : (((module.processes ++ [record]) ++ records).map Prod.fst).Nodup := by
        rwa [List.append_assoc, List.singleton_append]
      have rest := @ih { module with processes := module.processes ++ [record] } nodup'
        fun other member => living other (List.mem_cons_of_mem _ member)
      apply Prog.wp_mono rest
      rintro result ⟨⟩ rfl
      rw [List.append_assoc, List.singleton_append]

theorem snapshot_moduleReport (module : ModuleInfo) :
    (moduleReport module).snapshot = ⟨module.id, module.processes.map reread⟩ := by
  have same : reread = fun record => ⟨(UInt32.ofInt record.1).toNat, record.2⟩ := by
    funext record
    rw [reread]
  rw [same, moduleReport, ModuleReport.snapshot, List.map_map]
  rfl

/-- The modules are restored one after the other; those in front have been. -/
theorem wp_restoreModules {front fresh own : Modules}
    (sorted : ((front ++ fresh).map ModuleInfo.id).Pairwise (· < ·))
    (enabled : fresh.map (fun module => (module.id, module.targets)) =
      own.map fun module => (module.id, module.targets))
    (empty : ∀ module ∈ fresh, module.processes = [])
    (distinct : ∀ module ∈ own, module.Distinct)
    (living : ∀ module ∈ own, ∀ record ∈ module.processes, ∃ path,
      processes.exe record.1 = some path ∧
        Targets.moduleMatches module (Procfs.stripDeletedSuffix path) = true) :
    (Modules.restoreEach (front ++ fresh) (own.map fun module => (moduleReport module).snapshot)).wp
      (processes.machine disk)
      (fun result _ => ∃ restored, result = front ++ restored ∧ restored.records = own.records)
      () := by
  induction own generalizing front fresh with
  | nil =>
      rw [List.map_nil, List.map_eq_nil_iff] at enabled
      exact ⟨[], by rw [enabled], rfl⟩
  | cons module own ih =>
      cases fresh with
      | nil => cases enabled
      | cons target fresh =>
          rw [List.map_cons, List.map_cons, List.cons.injEq, Prod.mk.injEq] at enabled
          rcases enabled with ⟨⟨sameId, sameTargets⟩, enabled⟩
          have before : ∀ other ∈ front, other.id < target.id := by
            intro other member
            rw [List.map_append, List.pairwise_append] at sorted
            exact sorted.2.2 other.id (List.mem_map_of_mem member) target.id
              (List.mem_map_of_mem List.mem_cons_self)
          have targetEmpty := empty target List.mem_cons_self
          have nodup : ((target.processes ++ module.processes).map Prod.fst).Nodup := by
            rw [targetEmpty, List.nil_append]
            exact (distinct module List.mem_cons_self).processes
          have targetLiving : ∀ record ∈ module.processes, ∃ path,
              processes.exe record.1 = some path ∧
                Targets.moduleMatches target (Procfs.stripDeletedSuffix path) = true := by
            intro record member
            have lives := living module List.mem_cons_self record member
            simpa only [Targets.moduleMatches, sameTargets] using lives
          rw [List.map_cons, snapshot_moduleReport, Modules.restoreEach, ← sameId,
            Modules.get?_middle before]
          dsimp only
          rw [Prog.bind_eq, Prog.wp_bind]
          apply Prog.wp_mono (wp_restoreEach nodup targetLiving)
          rintro updated ⟨⟩ rfl
          have replaced := @Modules.insert_middle target front fresh
            { target with processes := target.processes ++ module.processes } before rfl
          rw [replaced, List.append_cons]
          have rest := @ih (front ++ [{ target with
            processes := target.processes ++ module.processes }]) fresh ?_ enabled
              (fun other member => empty other (List.mem_cons_of_mem _ member))
              (fun other member => distinct other (List.mem_cons_of_mem _ member))
              fun other member => living other (List.mem_cons_of_mem _ member)
          · apply Prog.wp_mono rest
            rintro result ⟨⟩ ⟨restored, rfl, same⟩
            refine ⟨_ :: restored, List.append_assoc _ _ _, ?_⟩
            rw [Modules.records, Modules.records, List.map_cons, List.map_cons, targetEmpty,
              List.nil_append, sameId]
            exact congrArg _ same
          · rw [List.append_assoc, List.singleton_append]
            simpa using sorted

end Restoring

section Snapshots

variable [Config.Build] {serde : Serde} {identity : Identity} {own : Daemon} {disk : Ctl.Disk}

/-- The report that is written on this system. -/
def reportOn (identity : Identity) (own : Daemon) (disk : Ctl.Disk) : StateReport :=
  own.stateReport identity (Config.effectiveOf (disk Config.CONFIG_FILE))

/-- The state file is what the report is encoded as, whether it has to be replaced or not. -/
theorem wp_writeStateSnapshot {json : String}
    (encoded : serde.toString (reportOn identity own disk) = some json) :
    (writeStateSnapshot serde identity own).wp Ctl.working
      (fun _ after => after STATE_FILE = .text json) disk := by
  rw [writeStateSnapshot, Config.effective_eq]
  rintro config after ⟨⟨-, same⟩, isConfig⟩
  have isReport : serde.toString (own.stateReport identity (Config.effectiveOf config)) =
      some json := by
    have read : config = disk Config.CONFIG_FILE := isConfig
    rw [read]
    exact encoded
  have unchanged : after = disk := same
  rw [unchanged]
  change Prog.wp _ (match serde.toString (own.stateReport identity (Config.effectiveOf config)) with
    | none => _
    | some json => _) _ _
  rw [isReport]
  rintro onDisk after' ⟨⟨-, same⟩, isOnDisk⟩
  have read : onDisk = disk STATE_FILE := isOnDisk
  have unchanged : after' = disk := same
  rw [unchanged]
  simp only [Prog.pure_bind']
  by_cases stale : onDisk ≠ .text json
  · rw [if_pos stale]
    rintro created after'' ⟨same, -⟩ replaced last ⟨written, isReplaced⟩
    have success : replaced = true := isReplaced
    subst success
    have isLast : last = Function.update after'' STATE_FILE (.text json) := written
    rw [isLast]
    exact Function.update_self _ _ _
  · rw [if_neg stale]
    exact read.symm.trans (not_not.mp stale)

omit [Config.Build] in
/-- A table that is collected for the first time has no records. -/
theorem no_processes_of_collected {empty fresh : Daemon} {transcript : Transcript}
    (isEmpty : empty.modules = [])
    (collected : StateProg.Talks Daemon.collectTargets empty ⟨⟩ fresh transcript) :
    ∀ module ∈ fresh.modules, module.processes = [] := by
  have made : ∀ module, Targets.Collected empty.modules module → module.processes = [] := by
    rw [isEmpty]
    intro module collected
    cases collected with
    | kept known => cases known
    | fresh targets processes => exact processes
    | renewed known => cases known
  have ordered : empty.modules.Ordered fun module => module.processes = [] := by
    rw [isEmpty]
    exact Modules.Ordered.nil
  have returned := Targets.ordered_collect ordered made
  have said : StateProg.Says Daemon.collectTargets
      (fun _ own' _ => ∀ module ∈ own'.modules, module.processes = []) empty := by
    rw [Daemon.collectTargets, StateProg.says_bind, StateProg.says_get, StateProg.says_bind,
      StateProg.says_lift]
    apply returned.transcripts.mono
    exact fun modules transcript isOrdered => isOrdered.each
  exact collected.of_says said

omit [Config.Build] in
theorem wp_readSnapshotModules {processes : Processes} {json : String}
    (written : disk STATE_FILE = .text json) :
    (readSnapshotModules serde).wp (processes.machine disk)
      (fun snapshot _ => snapshot = serde.fromStr json) () := by
  rintro file _ isFile
  have read : file = .text json := Eq.trans isFile written
  subst read
  rfl

omit [Config.Build] in
theorem wp_restoreProcesses {M : Machine Sys Unit} {post : Modules → Prop} {fresh : Daemon}
    {recorded : List SnapshotModule}
    (restored : (fresh.modules.restoreEach recorded).wp M (fun modules _ => post modules) ()) :
    StateProg.wp M (Daemon.restoreProcesses (some recorded))
      (fun _ own' _ => post own'.modules) fresh () := by
  rw [Daemon.restoreProcesses, StateProg.wp_bind, StateProg.wp_get, StateProg.wp_bind,
    StateProg.wp_lift]
  exact restored

/-- What the daemon has recorded survives a restart. -/
theorem wp_restart {processes : Processes} {fresh : Daemon}
    (ordered : own.modules.Ordered ModuleInfo.Distinct) (faithful : serde.Faithful)
    (encoded : (serde.toString (reportOn identity own disk)).isSome)
    (succeeds : Succeeds processes own fresh) :
    (writeStateSnapshot serde identity own).wp Ctl.working
      (fun _ after => StateProg.wp (processes.machine after) (Daemon.restoreFromFile serde)
        (fun _ restored _ => restored.modules.records = own.modules.records) fresh ()) disk := by
  rcases Option.isSome_iff_exists.mp encoded with ⟨json, isJson⟩
  apply Prog.wp_mono (wp_writeStateSnapshot isJson)
  rintro ⟨⟩ after written
  have decoded : serde.fromStr json =
      some (own.modules.map fun module => (moduleReport module).snapshot) := by
    rw [faithful _ _ isJson, reportOn, Daemon.stateReport, List.map_map]
    rfl
  rcases succeeds.collected with ⟨empty, transcript, isEmpty, collected⟩
  have sorted : (fresh.modules.map ModuleInfo.id).Pairwise (· < ·) := by
    have sameIds := congrArg (List.map Prod.fst) succeeds.enabled
    simp only [List.map_map, Function.comp_def] at sameIds
    rw [show fresh.modules.map ModuleInfo.id = own.modules.map ModuleInfo.id from sameIds,
      List.pairwise_map]
    exact ordered.sorted
  have restored := @wp_restoreModules processes after [] fresh.modules own.modules sorted
    succeeds.enabled (no_processes_of_collected isEmpty collected) ordered.each succeeds.living
  rw [Daemon.restoreFromFile, StateProg.wp_bind, StateProg.wp_lift]
  apply Prog.wp_mono (wp_readSnapshotModules written)
  rintro snapshot ⟨⟩ rfl
  rw [decoded]
  refine @wp_restoreProcesses _ (fun modules => modules.records = own.modules.records) _ _ ?_
  apply Prog.wp_mono restored
  rintro modules _ ⟨restored, rfl, same⟩
  exact same

/-- In every state that the writers reach, in any order, nothing is recorded twice, and what is
recorded of processes that stay is there again after a restart. -/
theorem records_survive (reached : recordKeeping.Reachable own) :
    (∀ module ∈ own.modules, module.Distinct) ∧
      ∀ (serde : Serde) (identity : Identity) (disk : Ctl.Disk) (processes : Processes)
        (fresh : Daemon), serde.Faithful →
          (serde.toString (reportOn identity own disk)).isSome → Succeeds processes own fresh →
            (writeStateSnapshot serde identity own).wp Ctl.working
              (fun _ after =>
                StateProg.wp (processes.machine after) (Daemon.restoreFromFile serde)
                  (fun _ restored _ => restored.modules.records = own.modules.records) fresh ())
              disk := by
  have ordered := ordered_of_reachable reached
  refine ⟨ordered.each, ?_⟩
  intro serde identity disk processes fresh faithful encoded succeeds
  exact wp_restart ordered faithful encoded succeeds

end Snapshots

section TwoRecords

/-- What is read of a directory with one module. -/
def readingTwo : Transcript :=
  [⟨.listModules, some ["m"]⟩, ⟨.accessible "/data/adb/modules/m/disable", false⟩,
    ⟨.accessible "/data/adb/modules/m/remove", false⟩,
    ⟨.readToString "/data/adb/modules/m/zn_modules.txt", .text "path=/bin/t lib.so"⟩,
    ⟨.readToString "/data/adb/modules/m/module.prop", .notFound⟩,
    ⟨.readToString "/data/adb/modules/m/module.prop", .notFound⟩]

/-- This module, with some records. -/
def moduleOfTwo (records : List (Pid × String)) : ModuleInfo :=
  { id := "m", name := "m", targets := [⟨false, "/bin/t"⟩],
    declarations := [⟨⟨false, "/bin/t"⟩, false, "lib.so"⟩], processes := records }

def diskOfTwo : Ctl.Disk := fun _ => .notFound

def identityOfTwo : Identity := ⟨1, "1.0", {}⟩

def reportOfTwo : StateReport where
  running := true
  pid := 1
  mode := "ptrace"
  version := "1.0"
  system := {}
  config := @Config.HookConfig.report Config.Build.arm64 (Config.defaults .arm64)
  modules := [⟨"m", "m", "", [⟨7, "t"⟩, ⟨9, "t"⟩], []⟩]

def jsonOfTwo : String :=
  "\x7b\"running\":true,\"pid\":1,\"mode\":\"ptrace\",\"version\":\"1.0\"," ++
  "\"system\":\x7b\"kernel\":\"\",\"sdk\":0,\"abi\":\"\",\"abilist\":\"\"," ++
  "\"root\":\x7b\"kernelSU\":\"\",\"magisk\":\"\",\"apatch\":\"\"\x7d\x7d," ++
  "\"config\":\x7b\"inlineHook\":\x7b\"value\":\"dobby\"," ++
  "\"options\":[\"dobby\",\"shadowhook\",\"and64inlinehook\",\"frida-gum\",\"disable\"]\x7d," ++
  "\"pltHook\":\x7b\"value\":\"lsplt\"," ++
  "\"options\":[\"lsplt\",\"plti\",\"bytehook\",\"xhook\",\"disable\"]\x7d," ++
  "\"mode\":\x7b\"value\":\"auto\"," ++
  "\"options\":[\"auto\",\"kernel\",\"ptrace\",\"proc\",\"late\"]\x7d," ++
  "\"debugdata\":\x7b\"value\":\"lzma\",\"options\":[\"lzma\",\"xz\"]\x7d," ++
  "\"disableZn\":\x7b\"value\":\"true\",\"options\":[\"true\",\"false\"]\x7d\x7d," ++
  "\"modules\":[\x7b\"id\":\"m\",\"name\":\"m\",\"version\":\"\"," ++
  "\"processes\":[\x7b\"pid\":7,\"name\":\"t\"\x7d,\x7b\"pid\":9,\"name\":\"t\"\x7d]," ++
  "\"failed\":[]\x7d]\x7d"

/-- `serde_json` on this report and on its text. -/
def serdeOfTwo : Serde where
  toString report := if report = reportOfTwo then some jsonOfTwo else none
  fromStr text := if text = jsonOfTwo then some [⟨"m", [⟨7, "t"⟩, ⟨9, "t"⟩]⟩] else none

def processesOfTwo : Processes where
  exe pid := if pid = 7 ∨ pid = 9 then some "/bin/t" else none
  positive pid path found := by
    split at found
    case isFalse => cases found
    case isTrue known =>
      rcases known with rfl | rfl
      · exact ⟨by decide, by decide⟩
      · exact ⟨by decide, by decide⟩

theorem faithful_serdeOfTwo : serdeOfTwo.Faithful := by
  intro report text encoded
  unfold serdeOfTwo at encoded ⊢
  dsimp only at encoded ⊢
  split at encoded
  case isFalse => cases encoded
  case isTrue isReport =>
    cases encoded
    rw [if_pos rfl, isReport]
    decide

/-- The targets are collected, and of two processes one is recorded a second time. -/
theorem records_survive_two : ∃ own fresh : Daemon, recordKeeping.Reachable own ∧
    own.modules.records = [("m", [(7, "t"), (9, "t")])] ∧
      (∀ module ∈ own.modules, module.Distinct) ∧
        (@writeStateSnapshot Config.Build.arm64 serdeOfTwo identityOfTwo own).wp Ctl.working
          (fun _ after =>
            StateProg.wp (processesOfTwo.machine after) (Daemon.restoreFromFile serdeOfTwo)
              (fun _ restored _ => restored.modules.records = own.modules.records) fresh ())
          diskOfTwo := by
  have replayed : ((Daemon.collectTargets.run {}).replay readingTwo).map
      (fun result => (result.2.modules, result.2.mode)) =
        some ([moduleOfTwo []], Tracking.ptrace) := by decide +kernel
  rcases Option.map_eq_some_iff.mp replayed with ⟨⟨⟨⟩, fresh⟩, collected, isFresh⟩
  rw [Prod.mk.injEq] at isFresh
  rcases isFresh with ⟨isTable, isMode⟩
  have ran : StateProg.Talks Daemon.collectTargets {} ⟨⟩ fresh readingTwo :=
    Prog.Talks.of_replay collected
  let add : Pid → Daemon → Daemon := fun pid =>
    Daemon.updateModules fun module => module.addProcess pid "/bin/t" "t"
  have recorded : ∀ pid own, recordKeeping.Step own (.success pid "/bin/t",
      [⟨.note (.recordSuccess pid "/bin/t"), ()⟩, ⟨.processName pid "/bin/t", "t"⟩])
      (add pid own) :=
    fun pid own => .call (.call (.pure _))
  let own := add 7 (add 9 (add 7 fresh))
  have collecting : recordKeeping.Step {} (.collect, readingTwo) fresh := ran
  have reached : recordKeeping.Reachable own :=
    ((((System.Reachable.initial rfl).step collecting).step (recorded 7 _)).step
      (recorded 9 _)).step (recorded 7 _)
  have isOwn : own.modules = [moduleOfTwo [(7, "t"), (9, "t")]] := by
    change ((fresh.modules.map _).map _).map _ = _
    rw [isTable]
    decide +kernel
  have isReport : @reportOn Config.Build.arm64 identityOfTwo own diskOfTwo = reportOfTwo := by
    have mode : own.mode = .ptrace := isMode
    unfold reportOn Daemon.stateReport
    rw [isOwn, mode]
    decide +kernel
  have succeeds : Succeeds processesOfTwo own fresh := by
    refine ⟨⟨{}, readingTwo, rfl, ran⟩, ?_, ?_⟩
    · rw [isTable, isOwn]
      rfl
    · rw [isOwn]
      intro module isModule record member
      rw [List.mem_singleton.mp isModule] at member ⊢
      rcases List.mem_pair.mp member with rfl | rfl
      · exact ⟨"/bin/t", rfl, by decide +kernel⟩
      · exact ⟨"/bin/t", rfl, by decide +kernel⟩
  have encoded : (serdeOfTwo.toString
      (@reportOn Config.Build.arm64 identityOfTwo own diskOfTwo)).isSome := by
    rw [isReport]
    rfl
  have survives := @records_survive Config.Build.arm64 own reached
  refine ⟨own, fresh, reached, ?_, survives.1, ?_⟩
  · rw [isOwn]
    rfl
  · exact survives.2 serdeOfTwo identityOfTwo diskOfTwo processesOfTwo fresh faithful_serdeOfTwo
      encoded succeeds

end TwoRecords

end Znn.Injector
