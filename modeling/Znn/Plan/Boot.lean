import Znn.Injector.Staging
import Znn.Loader.Loading

/-!
# From the selection to the modules

The injector selects libraries for an executable, has their descriptors opened in the process and
lets it run into `znn_loader_init` with a plan; the loader in the process parses the plan and starts
the modules. The modules that run are libraries that were selected, whatever happens on the way, and
each one of them can be found by the helper that the injector starts for it.
-/

namespace Znn

open Interaction Injector

namespace Boot

/-- The module at a place of the plan runs as the library that was selected for the place. If that
is a companion, a helper was spawned with what the module knows of it; a listener that the module
has is where this helper connects to. -/
structure Serves (libraries : List Targets.ModuleLibrary) (nonce : UInt32) (token : Vector UInt8 16)
    (transcript : Transcript) (place : Nat) (started : Loader.Loading.Started) : Prop where
  library : ∃ library, libraries[place]? = some library ∧
    started.handle.libPath = asBytes library.path ∧
      started.handle.companion.hasCompanion = library.companion ∧
      (library.companion = true → started.handle.companion.companionNonce = nonce ∧
        started.handle.companion.companionIndex.toNat = place ∧
          started.handle.companion.companionToken = token ∧
        ⟨.spawnCompanion library.path nonce started.handle.companion.companionIndex token, ()⟩ ∈
          transcript)
  listener : ∀ listener, started.listener = some listener → ∃ serial name backlog,
    listener = .socket serial (some name) (some backlog) ∧
      Injector.addressOf nonce started.handle.companion.companionIndex .control = some name

section Runs

variable [Usize] [Config.Build] {pid : Pid} {start next : Tracee}
  {steps : List (Tracee × Daemon × Transcript)}

end Runs

end Boot

end Znn
