import Mathlib.Data.Nat.Log
import Znn.Bytes.Order
import Znn.Interaction.Iterate
import Znn.Interaction.Transcript

/-!
# Decompression of `.gnu_debugdata`

Neither decoder knows in advance how much it will write. `lzmaAlone` decodes again into a buffer of
twice the size while the stream is not finished, `xzStream` has one decoder go on in a larger
buffer. The decoders are the environment: they answer as they like, as long as they keep to their
interfaces. The growth of the buffer alone ends both loops; what the decoders report decides the
result.
-/

namespace Znn.Loader.Debugdata

open Interaction Bytes

def kMaxDecompressedSize : Nat := 64 * 1024 * 1024
def kMaxDictionarySize : Nat := 64 * 1024 * 1024
def kInitialOutputSize : Nat := 256 * 1024
def kXzMagic : List UInt8 := [0xFD, 55, 122, 88, 90, 0]
def UINT64_MAX : Nat := 2 ^ 64 - 1

inductive Backend where
  | kLzma
  | kXz
deriving DecidableEq, Repr

inductive ELzmaFinishMode where
  | LZMA_FINISH_ANY
  | LZMA_FINISH_END
deriving DecidableEq, Repr

inductive ELzmaStatus where
  | LZMA_STATUS_NOT_SPECIFIED
  | LZMA_STATUS_FINISHED_WITH_MARK
  | LZMA_STATUS_NOT_FINISHED
  | LZMA_STATUS_NEEDS_MORE_INPUT
  | LZMA_STATUS_MAYBE_FINISHED_WITHOUT_MARK
deriving DecidableEq, Repr

/-- The statuses that the decoder has for the end of a stream. -/
def ELzmaStatus.finished (status : ELzmaStatus) : Bool :=
  status = .LZMA_STATUS_FINISHED_WITH_MARK || status = .LZMA_STATUS_MAYBE_FINISHED_WITHOUT_MARK

abbrev SRes : Type := Int

def SZ_OK : SRes := 0

inductive XzRet where
  | XZ_OK
  | XZ_STREAM_END
  | XZ_UNSUPPORTED_CHECK
  | XZ_MEM_ERROR
  | XZ_MEMLIMIT_ERROR
  | XZ_FORMAT_ERROR
  | XZ_OPTIONS_ERROR
  | XZ_DATA_ERROR
  | XZ_BUF_ERROR
deriving DecidableEq, Repr

/-- A decoder that `xz_dec_init` has allocated. -/
abbrev XzDec : Type := Nat

structure XzBuf where
  input : List UInt8
  inPos : Nat
  inSize : Nat
  out : List UInt8
  outPos : Nat
  outSize : Nat
deriving DecidableEq, Repr

/-- What `LzmaDecode` returns and leaves behind its pointers. -/
structure LzmaDecoded where
  dest : List UInt8
  destLen : Nat
  srcLen : Nat
  status : ELzmaStatus
  result : SRes
deriving DecidableEq, Repr

/-- What `xz_dec_run` returns and changes in its buffer: the positions and the output. -/
structure XzRan where
  result : XzRet
  inPos : Nat
  out : List UInt8
  outPos : Nat
deriving DecidableEq, Repr

inductive Call where
  | lzmaDecode (dest : List UInt8) (src propData : List UInt8) (finishMode : ELzmaFinishMode)
  | xzDecInit (dictMax : Nat)
  | xzDecRun (state : XzDec) (buffer : XzBuf)
  | xzDecEnd (state : XzDec)
deriving DecidableEq, Repr

/-- The LZMA SDK and xz-embedded. -/
def Decoders : Interface where
  Call := Call
  Answer
    | .lzmaDecode .. => LzmaDecoded
    | .xzDecInit _ => Option XzDec
    | .xzDecRun .. => XzRan
    | .xzDecEnd _ => Unit

def lzmaDecode (dest src propData : List UInt8) (finishMode : ELzmaFinishMode) :
    Prog Decoders LzmaDecoded :=
  Prog.perform (I := Decoders) (.lzmaDecode dest src propData finishMode)

def xzDecInit (dictMax : Nat) : Prog Decoders (Option XzDec) :=
  Prog.perform (I := Decoders) (.xzDecInit dictMax)

def xzDecRun (state : XzDec) (buffer : XzBuf) : Prog Decoders XzRan :=
  Prog.perform (I := Decoders) (.xzDecRun state buffer)

def xzDecEnd (state : XzDec) : Prog Decoders Unit :=
  Prog.perform (I := Decoders) (.xzDecEnd state)

def isXzStream (data : List UInt8) : Bool :=
  data.take kXzMagic.length = kXzMagic

/-- `std::vector::resize`. -/
def resize (out : List UInt8) (size : Nat) : List UInt8 :=
  out.take size ++ List.replicate (size - out.length) 0

/-- A pass of the loop of `lzmaAlone`, on the capacity and the output. -/
def lzmaPass (payload propData : List UInt8) (sized : Bool) (start : Nat × List UInt8) :
    Prog Decoders ((Nat × List UInt8) ⊕ (Bool × List UInt8)) := do
  let capacity := start.1
  let finishMode := if sized then ELzmaFinishMode.LZMA_FINISH_END else .LZMA_FINISH_ANY
  let decoded ← lzmaDecode (resize start.2 capacity) payload propData finishMode
  if decoded.result ≠ SZ_OK then
    pure (.inr (false, decoded.dest))
  else if decoded.status.finished then
    pure (.inr (true, resize decoded.dest decoded.destLen))
  else if sized || capacity ≥ kMaxDecompressedSize then
    pure (.inr (false, decoded.dest))
  else
    pure (.inl (min (capacity * 2) kMaxDecompressedSize, decoded.dest))

/-- The size that the header gives. -/
def declaredSize (data : List UInt8) : Nat :=
  littleValue ((data.drop 5).take 8)

def isSized (data : List UInt8) : Bool :=
  declaredSize data ≠ 0 && declaredSize data ≠ UINT64_MAX

/-- There is no result while the loop still goes on; otherwise it is what is returned, with the
output. -/
def lzmaAlone (passes : Nat) (data out : List UInt8) :
    Prog Decoders (Option (Bool × List UInt8)) :=
  if data.length < 13 || isXzStream data then
    pure (some (false, out))
  else if isSized data && declaredSize data > kMaxDecompressedSize then
    pure (some (false, out))
  else
    let capacity := if isSized data then declaredSize data else kInitialOutputSize
    Prog.iterate (lzmaPass (data.drop 13) (data.take 5) (isSized data)) passes (capacity, out)

/-- A pass of the loop of `xzStream`. -/
def xzPass (state : XzDec) (start : XzBuf) : Prog Decoders (XzBuf ⊕ (Bool × List UInt8)) := do
  let ran ← xzDecRun state start
  let buffer := { start with inPos := ran.inPos, out := ran.out, outPos := ran.outPos }
  if ran.result = .XZ_STREAM_END then
    pure (.inr (true, resize buffer.out buffer.outPos))
  else if ran.result ≠ .XZ_OK || buffer.inPos = buffer.inSize then
    pure (.inr (false, buffer.out))
  else if buffer.outPos < buffer.outSize then
    pure (.inr (false, buffer.out))
  else if buffer.out.length ≥ kMaxDecompressedSize then
    pure (.inr (false, buffer.out))
  else
    let grown := min (buffer.out.length * 2) kMaxDecompressedSize
    pure (.inl { buffer with out := resize buffer.out grown, outSize := grown })

def xzBuffer (data out : List UInt8) : XzBuf where
  input := data
  inPos := 0
  inSize := data.length
  out := resize out kInitialOutputSize
  outPos := 0
  outSize := kInitialOutputSize

def xzStream (passes : Nat) (data out : List UInt8) :
    Prog Decoders (Option (Bool × List UInt8)) :=
  if !isXzStream data then
    pure (some (false, out))
  else do
    match ← xzDecInit kMaxDictionarySize with
    | none => pure (some (false, out))
    | some state =>
        match ← Prog.iterate (xzPass state) passes (xzBuffer data out) with
        | none => pure none
        | some (done, out) =>
            xzDecEnd state
            pure (some (done, out))

def tryBackend (passes : Nat) (backend : Backend) (data out : List UInt8) :
    Prog Decoders (Option (Bool × List UInt8)) :=
  if backend = .kXz then xzStream passes data out else lzmaAlone passes data out

/-- The loop of `decompress` over the backends; the output is cleared before each of them. -/
def tryBackends (passes : Nat) (data : List UInt8) :
    List Backend → Prog Decoders (Option (Bool × List UInt8))
  | [] => pure (some (false, []))
  | candidate :: rest => do
      match ← tryBackend passes candidate data [] with
      | none => pure none
      | some (true, out) => pure (some (true, out))
      | some (false, _) => tryBackends passes data rest

/-- `decompress` of data at a pointer that may be null, where each loop has `passes` passes. -/
def decompress (passes : Nat) (preferred : Backend) (data : Option (List UInt8)) :
    Prog Decoders (Option (Bool × List UInt8)) :=
  match data with
  | none => pure (some (false, []))
  | some data =>
      if data.length = 0 then
        pure (some (false, []))
      else
        let fallback := if preferred = .kXz then Backend.kLzma else .kXz
        tryBackends passes data [preferred, fallback]

/-- Nothing is written beyond the output. -/
def LzmaDecoded.Respects (dest src : List UInt8) (decoded : LzmaDecoded) : Prop :=
  decoded.dest.length = dest.length ∧ decoded.destLen ≤ dest.length ∧ decoded.srcLen ≤ src.length

/-- Nothing is written beyond the output and no position moves back; a run that is reported as OK
has consumed input, produced output or filled the output. -/
structure XzRan.Respects (buffer : XzBuf) (ran : XzRan) : Prop where
  sameSize : ran.out.length = buffer.out.length
  consumed : buffer.inPos ≤ ran.inPos ∧ ran.inPos ≤ buffer.inSize
  produced : buffer.outPos ≤ ran.outPos ∧ ran.outPos ≤ buffer.outSize
  progress : ran.result = .XZ_OK →
    buffer.inPos < ran.inPos ∨ buffer.outPos < ran.outPos ∨ ran.outPos = buffer.outSize

def Respects : (request : Call) → Decoders.Answer request → Prop
  | .lzmaDecode dest src _ _, decoded => LzmaDecoded.Respects dest src decoded
  | .xzDecRun _ buffer, ran => XzRan.Respects buffer ran
  | .xzDecInit _, _ => True
  | .xzDecEnd _, _ => True

/-- Any decoders that keep to their interfaces, and all that was asked of them. -/
def decoders : Machine Decoders (List (Exchange Decoders)) where
  Step before request answer after :=
    Respects request answer ∧ after = before ++ [⟨request, answer⟩]

/-- The size of the output buffer that a decoder is given. -/
def Call.outputSize : Call → Nat
  | .lzmaDecode dest _ _ _ => dest.length
  | .xzDecRun _ buffer => max buffer.out.length buffer.outSize
  | _ => 0

/-- The exchange decodes the data, and nothing else. -/
def Call.Decodes (data : List UInt8) : Call → Prop
  | .lzmaDecode _ src propData _ => src = data.drop 13 ∧ propData = data.take 5
  | .xzDecRun _ buffer => buffer.input = data ∧ buffer.inSize = data.length
  | _ => False

/-- The decoder has reported its output as complete. -/
def Completes (out : List UInt8) : (request : Call) → Decoders.Answer request → Prop
  | .lzmaDecode .., decoded =>
      LzmaDecoded.result decoded = SZ_OK ∧ (LzmaDecoded.status decoded).finished = true ∧
        out = (LzmaDecoded.dest decoded).take (LzmaDecoded.destLen decoded)
  | .xzDecRun .., ran =>
      XzRan.result ran = .XZ_STREAM_END ∧ out = (XzRan.out ran).take (XzRan.outPos ran)
  | _, _ => False

/-- No buffer was larger than the limit. -/
def Bounded (history : List (Exchange Decoders)) : Prop :=
  ∀ exchange ∈ history, Call.outputSize exchange.1 ≤ kMaxDecompressedSize

/-- The last that was decoded is the data, and its decoder has reported the output as complete. -/
def Reported (data out : List UInt8) (history : List (Exchange Decoders)) : Prop :=
  ∃ front request answer behind, history = front ++ ⟨request, answer⟩ :: behind ∧
    Call.Decodes data request ∧ Completes out request answer ∧
    ∀ later ∈ behind, ∃ state, later.1 = Call.xzDecEnd state

/-- What a backend returns, and what it leaves in the output. -/
structure Outcome (data : List UInt8) (value : Bool × List UInt8)
    (history : List (Exchange Decoders)) : Prop where
  bounded : Bounded history
  reported : value.1 = true → Reported data value.2 history

section Growth

@[simp]
theorem length_resize (out : List UInt8) (size : Nat) : (resize out size).length = size := by
  rw [resize, List.length_append, List.length_take, List.length_replicate]
  omega

theorem resize_of_le {out : List UInt8} {size : Nat} (fits : size ≤ out.length) :
    resize out size = out.take size := by
  rw [resize, Nat.sub_eq_zero_of_le fits]
  exact List.append_nil _

/-- How often a buffer of this size can still be doubled. -/
def doublings (capacity : Nat) : Nat :=
  26 - Nat.log 2 capacity

theorem kMaxDecompressedSize_eq : kMaxDecompressedSize = 2 ^ 26 := by decide

theorem kInitialOutputSize_fits :
    0 < kInitialOutputSize ∧ kInitialOutputSize ≤ kMaxDecompressedSize := by decide

theorem doublings_kInitialOutputSize : doublings kInitialOutputSize = 8 := by
  have isPower : kInitialOutputSize = 2 ^ 18 := by decide
  rw [doublings, isPower, Nat.log_pow Nat.one_lt_two]

/-- The buffer grows, unless it is at the limit. -/
theorem doublings_grown {capacity : Nat} (positive : 0 < capacity)
    (below : capacity < kMaxDecompressedSize) :
    doublings (min (capacity * 2) kMaxDecompressedSize) < doublings capacity := by
  rw [kMaxDecompressedSize_eq] at below ⊢
  have exponent : Nat.log 2 capacity < 26 := Nat.log_lt_of_lt_pow (by omega) below
  have doubled : 2 ^ (Nat.log 2 capacity + 1) ≤ min (capacity * 2) (2 ^ 26) := by
    have atMost : 2 ^ Nat.log 2 capacity ≤ capacity := Nat.pow_log_le_self 2 (by omega)
    apply le_min
    · rw [pow_succ]
      omega
    · exact Nat.pow_le_pow_right (by decide) exponent
  have longer := Nat.log_mono_right (b := 2) doubled
  rw [Nat.log_pow Nat.one_lt_two] at longer
  simp only [doublings]
  omega

end Growth

section Passes

variable {data : List UInt8} {history : List (Exchange Decoders)}

theorem wp_lzmaDecode (dest src propData : List UInt8) (finishMode : ELzmaFinishMode)
    {post : LzmaDecoded → List (Exchange Decoders) → Prop} :
    (lzmaDecode dest src propData finishMode).wp decoders post history ↔
      ∀ decoded : LzmaDecoded, decoded.Respects dest src →
        post decoded (history ++ [⟨Call.lzmaDecode dest src propData finishMode, decoded⟩]) := by
  constructor
  · intro holds decoded respects
    exact holds decoded _ ⟨respects, rfl⟩
  · rintro holds decoded after ⟨respects, rfl⟩
    exact holds decoded respects

theorem wp_xzDecRun (state : XzDec) (buffer : XzBuf)
    {post : XzRan → List (Exchange Decoders) → Prop} :
    (xzDecRun state buffer).wp decoders post history ↔
      ∀ ran : XzRan, ran.Respects buffer →
        post ran (history ++ [⟨Call.xzDecRun state buffer, ran⟩]) := by
  constructor
  · intro holds ran respects
    exact holds ran _ ⟨respects, rfl⟩
  · rintro holds ran after ⟨respects, rfl⟩
    exact holds ran respects

theorem Bounded.told (bounded : Bounded history) {request : Call}
    {answer : Decoders.Answer request} (fits : request.outputSize ≤ kMaxDecompressedSize) :
    Bounded (history ++ [⟨request, answer⟩]) := by
  intro exchange present
  rcases List.mem_append.mp present with earlier | last
  · exact bounded exchange earlier
  · rw [List.mem_singleton.mp last]
    exact fits

theorem Reported.last {out : List UInt8} {request : Call} {answer : Decoders.Answer request}
    (decodes : request.Decodes data) (completes : Completes out request answer) :
    Reported data out (history ++ [⟨request, answer⟩]) :=
  ⟨history, request, answer, [], rfl, decodes, completes, fun _ present =>
    absurd present List.not_mem_nil⟩

theorem Outcome.of_failure {out : List UInt8} (bounded : Bounded history) :
    Outcome data (false, out) history :=
  ⟨bounded, fun failed => absurd failed Bool.false_ne_true⟩

/-- Before a pass of the loop of `lzmaAlone`. -/
structure LzmaReady (start : Nat × List UInt8) (history : List (Exchange Decoders)) : Prop where
  positive : 0 < start.1
  limited : start.1 ≤ kMaxDecompressedSize
  bounded : Bounded history

theorem lzmaPass_advances (sized : Bool) {start : Nat × List UInt8}
    (ready : LzmaReady start history) :
    (lzmaPass (data.drop 13) (data.take 5) sized start).wp decoders
      (Prog.Advances LzmaReady (Outcome data)
        (fun start => if sized then 0 else doublings start.1) start) history := by
  rw [lzmaPass, Prog.bind_eq, Prog.wp_bind, wp_lzmaDecode]
  intro decoded respects
  have bounded : Bounded (history ++ [⟨Call.lzmaDecode (resize start.2 start.1) (data.drop 13)
      (data.take 5) (if sized then .LZMA_FINISH_END else .LZMA_FINISH_ANY), decoded⟩]) :=
    ready.bounded.told ((length_resize start.2 start.1).trans_le ready.limited)
  split
  · exact Outcome.of_failure bounded
  rename_i succeeded
  rw [not_not] at succeeded
  split
  · rename_i finished
    rw [resize_of_le (respects.2.1.trans_eq respects.1.symm)]
    exact ⟨bounded, fun _ => Reported.last ⟨rfl, rfl⟩ ⟨succeeded, finished, rfl⟩⟩
  split
  · exact Outcome.of_failure bounded
  rename_i grows
  rw [Bool.or_eq_true, decide_eq_true_eq, not_or, Nat.not_le] at grows
  have positive : 0 < min (start.1 * 2) kMaxDecompressedSize := by
    have doubled : 0 < start.1 * 2 := Nat.mul_pos ready.positive Nat.two_pos
    exact lt_min doubled (by decide)
  refine ⟨⟨positive, Nat.min_le_right _ _, bounded⟩, ?_⟩
  simp only [grows.1, Bool.false_eq_true, if_false]
  exact doublings_grown ready.positive grows.2

/-- Before a pass of the loop of `xzStream`. -/
structure XzReady (data : List UInt8) (start : XzBuf) (history : List (Exchange Decoders)) :
    Prop where
  sameSize : start.out.length = start.outSize
  positive : 0 < start.outSize
  limited : start.outSize ≤ kMaxDecompressedSize
  decodes : start.input = data ∧ start.inSize = data.length
  bounded : Bounded history

theorem xzPass_advances (state : XzDec) {start : XzBuf} (ready : XzReady data start history) :
    (xzPass state start).wp decoders
      (Prog.Advances (XzReady data) (Outcome data) (fun start => doublings start.outSize) start)
      history := by
  rw [xzPass, Prog.bind_eq, Prog.wp_bind, wp_xzDecRun]
  intro ran respects
  have bounded : Bounded (history ++ [⟨Call.xzDecRun state start, ran⟩]) := by
    apply ready.bounded.told
    rw [Call.outputSize, ready.sameSize, Nat.max_self]
    exact ready.limited
  have sameSize : ran.out.length = start.outSize := respects.sameSize.trans ready.sameSize
  dsimp only
  split
  · rename_i ended
    rw [resize_of_le (respects.produced.2.trans_eq sameSize.symm)]
    exact ⟨bounded, fun _ => Reported.last ready.decodes ⟨ended, rfl⟩⟩
  split
  · exact Outcome.of_failure bounded
  split
  · exact Outcome.of_failure bounded
  split
  · exact Outcome.of_failure bounded
  rename_i below
  rw [ge_iff_le, Nat.not_le, sameSize] at below
  have positive : 0 < min (start.outSize * 2) kMaxDecompressedSize := by
    have doubled : 0 < start.outSize * 2 := Nat.mul_pos ready.positive Nat.two_pos
    exact lt_min doubled (by decide)
  rw [← sameSize] at positive
  refine ⟨⟨length_resize _ _, positive, Nat.min_le_right _ _, ready.decodes, bounded⟩, ?_⟩
  rw [← sameSize] at below
  have fewer := doublings_grown (sameSize ▸ ready.positive) below
  rw [sameSize] at fewer
  simpa only [sameSize] using fewer

end Passes

section Backends

variable {data : List UInt8} {history : List (Exchange Decoders)}

/-- Every run of a backend comes to an end. -/
def Settles (data : List UInt8) (program : Prog Decoders (Option (Bool × List UInt8)))
    (history : List (Exchange Decoders)) : Prop :=
  program.wp decoders
    (fun result after => ∃ value, result = some value ∧ Outcome data value after) history

theorem Settles.of_failure (bounded : Bounded history) (out : List UInt8) :
    Settles data (pure (some (false, out))) history :=
  ⟨_, rfl, Outcome.of_failure bounded⟩

theorem lzmaAlone_settles (more : Nat) (out : List UInt8) (bounded : Bounded history) :
    Settles data (lzmaAlone (more + 9) data out) history := by
  rw [lzmaAlone]
  split
  · exact Settles.of_failure bounded out
  split
  · exact Settles.of_failure bounded out
  rename_i fits
  cases sized : isSized data with
  | true =>
      simp only [sized, Bool.true_and, decide_eq_true_eq, gt_iff_lt, Nat.not_lt] at fits
      have declared : declaredSize data ≠ 0 := by
        rw [isSized, Bool.and_eq_true, decide_eq_true_eq] at sized
        exact sized.1
      have ready : LzmaReady (declaredSize data, out) history :=
        ⟨Nat.pos_of_ne_zero declared, fits, bounded⟩
      exact Prog.wp_iterate (fun _ _ => lzmaPass_advances true) ready (Nat.succ_pos _)
  | false =>
      have ready : LzmaReady (kInitialOutputSize, out) history :=
        ⟨kInitialOutputSize_fits.1, kInitialOutputSize_fits.2, bounded⟩
      apply Prog.wp_iterate (fun _ _ => lzmaPass_advances false) ready
      have count := doublings_kInitialOutputSize
      simp only [Bool.false_eq_true, if_false, count]
      omega

theorem xzStream_settles (more : Nat) (out : List UInt8) (bounded : Bounded history) :
    Settles data (xzStream (more + 9) data out) history := by
  rw [xzStream]
  split
  · exact Settles.of_failure bounded out
  rw [Settles, Prog.bind_eq, Prog.wp_bind]
  rintro allocated after ⟨-, rfl⟩
  have bounded' : Bounded (history ++ [⟨Call.xzDecInit kMaxDictionarySize, allocated⟩]) :=
    bounded.told (Nat.zero_le _)
  cases allocated with
  | none => exact Settles.of_failure bounded' out
  | some state =>
      have ready : XzReady data (xzBuffer data out)
          (history ++ [⟨Call.xzDecInit kMaxDictionarySize, some state⟩]) :=
        ⟨length_resize _ _, kInitialOutputSize_fits.1, kInitialOutputSize_fits.2, ⟨rfl, rfl⟩,
          bounded'⟩
      have enough : doublings (xzBuffer data out).outSize < more + 9 := by
        rw [xzBuffer, doublings_kInitialOutputSize]
        omega
      change Prog.wp _ (Prog.bind _ _) _ _
      rw [Prog.wp_bind]
      apply Prog.wp_mono (Prog.wp_iterate (fun _ _ => xzPass_advances state) ready enough)
      rintro result after ⟨value, rfl, outcome⟩ answer later ⟨-, rfl⟩
      refine ⟨value, rfl, outcome.bounded.told (Nat.zero_le _), ?_⟩
      intro succeeded
      rcases outcome.reported succeeded with ⟨front, request, told, behind, rfl, decodes, completes,
        ended⟩
      refine ⟨front, request, told, behind ++ [_], List.append_assoc _ _ _, decodes, completes, ?_⟩
      intro exchange present
      rcases List.mem_append.mp present with earlier | last
      · exact ended exchange earlier
      · rw [List.mem_singleton.mp last]
        exact ⟨state, rfl⟩

theorem tryBackends_settles (more : Nat) (candidates : List Backend) (bounded : Bounded history) :
    (tryBackends (more + 9) data candidates).wp decoders
      (fun result after => Bounded after ∧ (result = some (false, []) ∨
        ∃ out, result = some (true, out) ∧ Reported data out after)) history := by
  induction candidates generalizing history with
  | nil => exact ⟨bounded, .inl rfl⟩
  | cons candidate rest ih =>
      have tried : Settles data (tryBackend (more + 9) candidate data []) history := by
        rw [tryBackend]
        split
        · exact xzStream_settles more [] bounded
        · exact lzmaAlone_settles more [] bounded
      rw [tryBackends, Prog.bind_eq, Prog.wp_bind]
      apply Prog.wp_mono tried
      rintro result after ⟨⟨succeeded, out⟩, rfl, outcome⟩
      cases succeeded with
      | true => exact ⟨outcome.bounded, .inr ⟨out, rfl, outcome.reported rfl⟩⟩
      | false => exact ih outcome.bounded

/-- Nine passes end each of the loops, whatever decoders that keep to their interfaces answer. No
buffer is ever larger than the limit; the result is what a decoder has reported as complete, or a
failure with no output. -/
theorem decompress_bounded (more : Nat) (preferred : Backend) (data : Option (List UInt8)) :
    (decompress (more + 9) preferred data).wp decoders
      (fun result history => (∀ exchange ∈ history,
          Call.outputSize exchange.1 ≤ kMaxDecompressedSize) ∧
        (result = some (false, []) ∨ ∃ bytes out, data = some bytes ∧
          result = some (true, out) ∧ Reported bytes out history)) [] := by
  have start : Bounded [] := fun _ present => absurd present List.not_mem_nil
  cases data with
  | none => exact ⟨start, .inl rfl⟩
  | some data =>
      rw [decompress]
      split
      · exact ⟨start, .inl rfl⟩
      apply Prog.wp_mono (tryBackends_settles more _ start)
      rintro result history ⟨bounded, failed | ⟨out, succeeded, reported⟩⟩
      · exact ⟨bounded, .inl failed⟩
      · exact ⟨bounded, .inr ⟨data, out, rfl, succeeded, reported⟩⟩

/-- A header that gives two bytes, and a decoder that finds them before an end mark. -/
example : ((decompress 9 .kXz (some [93, 0, 0, 4, 0, 2, 0, 0, 0, 0, 0, 0, 0, 1, 2, 3])).eval
    (fun
      | .lzmaDecode _ _ _ _, asked =>
          (LzmaDecoded.mk [7, 8] 2 3 .LZMA_STATUS_FINISHED_WITH_MARK SZ_OK, asked + 1)
      | .xzDecInit _, asked => ((none : Option XzDec), asked + 1)
      | .xzDecRun _ buffer, asked => (XzRan.mk .XZ_DATA_ERROR 0 buffer.out 0, asked + 1)
      | .xzDecEnd _, asked => ((), asked + 1)) 0) = (some (true, [7, 8]), 1) := by
  decide +kernel

end Backends

end Znn.Loader.Debugdata
