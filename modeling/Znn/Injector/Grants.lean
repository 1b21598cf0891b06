import Znn.Injector.Tally

/-!
# What a system may grant

Most requests on a stopped process can fail. The predicates below say of a restriction of the
answers that some of them do not: that the memory and the registers of the process can be
written, that its registers can be read at one point of the run, that what `start_file` needs
is found. Each helper of the injection succeeds under the predicates for the calls it makes.
-/

namespace Znn.Injector

open Interaction PtraceOps Trace

namespace Yields

variable {α β : Type} {allowed : Allowed} {good : α → Prop} {better : β → Prop}

theorem mono {weaker : α → Prop} {program : Prog Sys α} (holds : Yields allowed program good)
    (implies : ∀ value, good value → weaker value) : Yields allowed program weaker :=
  fun log => Prog.wp_mono (holds log) fun value _ => implies value

theorem pure {value : α} (holds : good value) : Yields allowed (Prog.pure value) good :=
  fun _ => holds

theorem perform {request : Call} {good : request.Answer → Prop}
    (answers : ∀ log answer, allowed log request answer → good answer) :
    Yields allowed (perform request) good :=
  fun log answer _ step => answers log answer step.2

theorem bind {program : Prog Sys α} {rest : α → Prog Sys β} (first : Yields allowed program good)
    (second : ∀ value, good value → Yields allowed (rest value) better) :
    Yields allowed (program.bind rest) better := by
  intro log
  rw [Prog.wp_bind]
  apply Prog.wp_mono (first log)
  intro value after isGood
  exact second value isGood after

theorem and {program : Prog Sys α} {other : α → Prop} (left : Yields allowed program good)
    (right : Yields allowed program other) :
    Yields allowed program fun value => good value ∧ other value :=
  fun log => Prog.wp_and (left log) (right log)

/-- What a program comes to when every request is answered as scripted. -/
theorem of_eval {answers : (request : Call) → request.Answer} (program : Prog Sys α)
    (holds : good (program.eval (I := Sys) (fun request _ => (answers request, ())) ()).1) :
    Yields (following answers) program good := by
  induction program with
  | pure value => exact fun _ => holds
  | call request next ih =>
      rintro log answer after ⟨rfl, rfl⟩
      exact ih _ holds _

end Yields

/-- The memory and the registers of the process can be written. -/
structure MemoryOpen (allowed : Allowed) (pid : Pid) : Prop where
  peek : ∀ log address word, allowed log (.peekData pid address) word → word.isSome
  poke : ∀ log address word ok, allowed log (.pokeData pid address word) ok → ok = true
  setRegset : ∀ log bytes ok, allowed log (.setRegset pid bytes) ok → ok = true

/-- The registers of the process can be read when the run has got to `start`. -/
def RegistersRead (allowed : Allowed) (start : List Event) (pid : Pid) : Prop :=
  ∀ length filled, allowed start (.getRegset pid length) filled → filled.isSome

/-- What `start_file` needs to find: the image of the loader, unless it has been read before,
and `syscall` in the C library of the process. -/
structure LoaderFound (allowed : Allowed) (pid : Pid) (tracee : Tracee) : Prop where
  image : tracee.content = [] →
    Yields allowed (Procfs.readFile tracee.loader) fun content => content.isSome
  syscall : Yields allowed (resolveSyscall pid) fun address => address.isSome

section Steps

variable [Usize] (allowed : Allowed) (start : List Event) (pid : Pid) (tracee : Tracee)

/-- What the registers of the stopped process are read as satisfies `good`. -/
def Reads (good : Regs → Prop) : Prop :=
  ∀ filled, allowed start (.getRegset pid tracee.arch.registerSize) (some filled) →
    good ((Regs.new tracee.arch).fill filled)

/-- What a step has to be granted so that it goes on, or records why it does not. -/
def StepGranted : Prop :=
  match tracee.state with
  | .entry =>
      RegistersRead allowed start pid ∧
        Reads allowed start pid tracee
          (fun regs => Daemon.comparedPc tracee.arch regs = Daemon.expectedPc tracee) ∧
        LoaderFound allowed pid tracee ∧ MemoryOpen allowed pid
  | .late =>
      RegistersRead allowed start pid ∧ LoaderFound allowed pid tracee ∧ MemoryOpen allowed pid
  | .dlopen =>
      RegistersRead allowed start pid ∧
        (Reads allowed start pid tracee (fun regs => regs.returnValue = 0) ∨
          Yields allowed (resolveSymbol pid "libdl.so" "dlsym") (fun address => address = none) ∨
          MemoryOpen allowed pid)
  | .dlsym | .dlerror => RegistersRead allowed start pid
  | .file | .init | .traced => True

end Steps

section Registers

variable (regs : Regs)

@[simp]
theorem Regs.write_arch (offset value : Nat) : (regs.write offset value).arch = regs.arch := by
  unfold Regs.write
  split
  · rfl
  · split <;> rfl

@[simp]
theorem Regs.setPc_arch (value : Nat) : (regs.setPc value).arch = regs.arch := by
  unfold Regs.setPc
  cases regs.arch.layout <;> simp

@[simp]
theorem Regs.setSp_arch (value : Nat) : (regs.setSp value).arch = regs.arch := by
  unfold Regs.setSp
  cases regs.arch.layout <;> simp

/-- Four arguments fit into the registers of x86_64. -/
theorem setAllArguments_isSome (args : List Nat) (index : Nat) {regs : Regs}
    (arch : regs.arch = .x86_64) (few : index + args.length ≤ 4) :
    (setAllArguments regs index args).isSome := by
  induction args generalizing index regs with
  | nil => rfl
  | cons argument rest ih =>
      rw [List.length_cons] at few
      have inRange : index < X86_64.argRegisters.length := by
        change index < 4
        omega
      simp only [setAllArguments, Regs.setArgument, arch, Arch.layout, Option.bind_some,
        List.getElem?_eq_getElem inRange, Option.map_some]
      exact ih (index + 1) (by simpa using arch) (by omega)

end Registers

section Helpers

variable [Usize] {allowed : Allowed} {pid : Pid}

theorem yields_writeFrom (isOpen : MemoryOpen allowed pid) (address : Nat) (buffer : List UInt8)
    (fuel done : Nat) :
    Yields allowed (writeFrom pid address buffer fuel done) fun ok => ok = true := by
  induction fuel generalizing done with
  | zero => exact Yields.pure rfl
  | succ fuel ih =>
      unfold writeFrom
      split
      · dsimp only
        split
        · apply Yields.bind (Yields.perform fun log => isOpen.peek log _)
          intro existing found
          obtain ⟨existing, rfl⟩ := Option.isSome_iff_exists.mp found
          apply Yields.bind (Yields.perform fun log => isOpen.poke log _ _)
          rintro _ rfl
          exact ih _
        · apply Yields.bind (Yields.perform fun log => isOpen.poke log _ _)
          rintro _ rfl
          exact ih _
      · exact Yields.pure rfl

theorem yields_writeMemory (isOpen : MemoryOpen allowed pid) (address : Nat)
    (buffer : List UInt8) :
    Yields allowed (writeMemory pid address buffer) fun ok => ok = true :=
  yields_writeFrom isOpen address buffer _ _

omit [Usize] in
theorem yields_writeRegisters (isOpen : MemoryOpen allowed pid) (regs : Regs) :
    Yields allowed (writeRegisters pid regs) fun ok => ok = true :=
  Yields.perform fun log => isOpen.setRegset log _

theorem yields_pushArguments (isOpen : MemoryOpen allowed pid) (args : List Nat)
    (stack : Nat) :
    Yields allowed (pushArguments pid stack args) fun lowered => lowered.isSome := by
  induction args generalizing stack with
  | nil => exact Yields.pure rfl
  | cons argument rest ih =>
      apply Yields.bind (yields_writeMemory isOpen _ _)
      rintro _ rfl
      exact ih _

theorem yields_setupCall (isOpen : MemoryOpen allowed pid) {regs : Regs}
    (known : regs.arch ≠ .unknown) (function returnTo : Nat) {args : List Nat}
    (few : args.length ≤ 4) :
    Yields allowed (setupCall pid regs function returnTo args) fun regs => regs.isSome := by
  unfold setupCall
  split
  · exact Yields.pure rfl
  · exact Yields.pure rfl
  · exact Yields.pure rfl
  case h_4 arch =>
    have fits := setAllArguments_isSome args 0 arch (by omega)
    obtain ⟨regs, filled⟩ := Option.isSome_iff_exists.mp fits
    rw [filled]
    apply Yields.bind (yields_writeMemory isOpen _ _)
    rintro _ rfl
    exact Yields.pure rfl
  · apply Yields.bind (yields_pushArguments isOpen _ _)
    intro stack pushed
    obtain ⟨stack, rfl⟩ := Option.isSome_iff_exists.mp pushed
    apply Yields.bind (yields_writeMemory isOpen _ _)
    rintro _ rfl
    exact Yields.pure rfl
  case h_6 arch => exact absurd arch known

theorem yields_pushBytes (isOpen : MemoryOpen allowed pid) (regs : Regs) (bytes : List UInt8) :
    Yields allowed (pushBytes pid regs bytes) fun pushed =>
      ∃ lowered address, pushed = some (lowered, address) ∧ lowered.arch = regs.arch := by
  apply Yields.bind (yields_writeMemory isOpen _ _)
  rintro _ rfl
  exact Yields.pure ⟨_, _, rfl, by simp⟩

theorem yields_armCall (isOpen : MemoryOpen allowed pid) (tracee : Tracee) {regs : Regs}
    (known : regs.arch ≠ .unknown) (function : Nat) {arguments : List Nat}
    (few : arguments.length ≤ 4) :
    Yields allowed (armCall pid tracee regs function arguments) fun result => result.1 = true := by
  apply Yields.bind (yields_setupCall isOpen known function tracee.returnAddress few)
  intro regs entered
  obtain ⟨regs, rfl⟩ := Option.isSome_iff_exists.mp entered
  apply Yields.bind (yields_writeRegisters isOpen regs)
  rintro _ rfl
  exact Yields.pure rfl

theorem yields_startMemfd (isOpen : MemoryOpen allowed pid)
    (syscall : Yields allowed (resolveSyscall pid) fun address => address.isSome)
    (tracee : Tracee) {regs : Regs} (known : regs.arch ≠ .unknown) :
    Yields allowed (startMemfd pid tracee regs) fun result => result.1 = true := by
  apply Yields.bind syscall
  intro address found
  obtain ⟨address, rfl⟩ := Option.isSome_iff_exists.mp found
  apply Yields.bind (yields_pushBytes isOpen regs _)
  rintro _ ⟨lowered, name, rfl, arch⟩
  apply yields_armCall isOpen
  · rwa [arch]
  · simp

/-- The loader image is brought into the process when everything it takes is granted. -/
theorem yields_startFile (isOpen : MemoryOpen allowed pid) {tracee : Tracee}
    (found : LoaderFound allowed pid tracee) (purpose : FilePurpose) {regs : Regs}
    (known : regs.arch ≠ .unknown) :
    Yields allowed (startFile pid tracee purpose regs) fun result => result.1 = true := by
  unfold startFile
  split
  case isTrue unread =>
    apply Yields.bind (found.image unread.2)
    intro content present
    obtain ⟨content, rfl⟩ := Option.isSome_iff_exists.mp present
    exact yields_startMemfd isOpen found.syscall _ known
  · exact yields_startMemfd isOpen found.syscall _ known

end Helpers

end Znn.Injector
