import PicoGpu.Lanes
import PicoGpu.LoadProgram
import PicoGpu.RequestStreams

/- The loop of a shader unit over its commands.

   Correspondence (shader_unit.cpp ↔ here):
     one iteration of the loop of `main`   ↔ `ShaderUnit.performCommand`
     the dwords behind a command's header  ↔ the arguments of a `UnitCommand`
   The clients of a unit do not know what it ran before, nor with whom a thread shares
   its batch. What they get for a thread depends on the program that was stored last,
   on the thread's own inputs, and on the uniforms and attributes of its request. -/
namespace PicoGpu

section
variable {V : Type}

/-- A command with the dwords that the unit can read. -/
inductive UnitCommand (V : Type) where
  | storeIsa (data : List Dword)
  | executeIsa (threadCount : BitVec 5) (stream : Nat → V)

/-- How many dwords a command took from the request port, and what it sent. -/
structure CommandResult (V : Type) where
  consumed : Nat
  outputStream : List V

namespace ShaderUnit

/-- One iteration of the loop of `main`. -/
def performCommand (alu : Alu V) (u : ShaderUnit V) :
    UnitCommand V → Except FatalError (ShaderUnit V × CommandResult V)
  | .storeIsa data =>
    let u := u.processStoreIsaCommand data
    .ok (u, ⟨Isa.commandSizeInDwords + u.isaMetadata.programLength.toNat, []⟩)
  | .executeIsa threadCount stream => do
    let received ← u.inputDwordsCount (nonZeroCountToInt threadCount)
    let (u, outputStream) ← u.processExecuteIsaCommand alu threadCount stream
    return (u, ⟨Isa.commandSizeInDwords + received, outputStream⟩)

def main (alu : Alu V) : List (UnitCommand V) → ShaderUnit V →
    Except FatalError (ShaderUnit V × List (CommandResult V))
  | [], u => .ok (u, [])
  | command :: commands, u => do
    let (u, result) ← u.performCommand alu command
    let (u, results) ← main alu commands u
    return (u, result :: results)

/-! ## One command -/

/-- What `ExecuteIsa` leaves outside of a unit. -/
def executeResult (alu : Alu V) (program : List Instruction) (u : ShaderUnit V)
    (threadCount : BitVec 5) (stream : Nat → V) : CommandResult V :=
  let count := nonZeroCountToInt threadCount
  { consumed := Isa.commandSizeInDwords +
      (count * u.threadDwords + u.uniformsDwords + u.attributesDwords)
    outputStream := (List.range count).flatMap fun l => u.threadOutputs alu program
      (fun k => stream (l * u.threadDwords + k))
      (fun k => stream (count * u.threadDwords + k))
      (fun k => stream (count * u.threadDwords + u.uniformsDwords + k)) }

theorem performCommand_executeIsa {alu : Alu V} {program : List Instruction} {u : ShaderUnit V}
    (h : u.Ready alu program) (threadCount : BitVec 5) (stream : Nat → V) :
    ∃ u', u.performCommand alu (.executeIsa threadCount stream) =
        .ok (u', u.executeResult alu program threadCount stream) ∧
      u'.isa = u.isa ∧ u'.isaMetadata = u.isaMetadata := by
  obtain ⟨u', hexecute, hisa, hmeta⟩ := processExecuteIsaCommand_eq h threadCount stream
  refine ⟨u', ?_, hisa, hmeta⟩
  rw [performCommand, inputDwordsCount_eq h.counts, ok_bind, hexecute]
  rfl

/-- The unit is as ready as one with the same memory and header. -/
theorem Ready.congr {alu : Alu V} {program : List Instruction} {u u' : ShaderUnit V}
    (h : u.Ready alu program) (hisa : u'.isa = u.isa) (hmeta : u'.isaMetadata = u.isaMetadata) :
    u'.Ready alu program where
  counts := ⟨by rw [hmeta]; exact h.counts.uniforms, by rw [hmeta]; exact h.counts.inputs⟩
  outputs := by rw [hmeta]; exact h.outputs
  programLength := by rw [hmeta]; exact h.programLength
  isa := by rw [hisa]; exact h.isa
  readable := h.readable

/-- Of the unit, only its header matters. -/
theorem executeResult_header (alu : Alu V) (program : List Instruction) {u v : ShaderUnit V}
    {hasNextCommand : BitVec 1}
    (hmeta : v.isaMetadata = { u.isaMetadata with hasNextCommand := hasNextCommand }) :
    v.executeResult alu program = u.executeResult alu program := by
  have houtputs := threadOutputs_header alu program hmeta
  obtain ⟨isaMetadata, isa, gpr, pc, uniformDwords⟩ := v
  cases hmeta
  unfold executeResult
  rw [houtputs]
  rfl

/-- A unit with a stored program performs one `ExecuteIsa` after the other. -/
theorem main_executes {alu : Alu V} {program : List Instruction}
    (executes : List (BitVec 5 × (Nat → V))) {u : ShaderUnit V} (h : u.Ready alu program) :
    ∃ u', main alu (executes.map fun (threadCount, stream) => .executeIsa threadCount stream) u =
        .ok (u', executes.map fun (threadCount, stream) =>
          u.executeResult alu program threadCount stream) ∧
      u'.isa = u.isa ∧ u'.isaMetadata = u.isaMetadata := by
  induction executes generalizing u with
  | nil => exact ⟨u, rfl, rfl, rfl⟩
  | cons execute executes ih =>
    obtain ⟨threadCount, stream⟩ := execute
    obtain ⟨u1, hcommand, hisa1, hmeta1⟩ := performCommand_executeIsa h threadCount stream
    obtain ⟨u2, hrest, hisa2, hmeta2⟩ := ih (h.congr hisa1 hmeta1)
    have hsame : u1.executeResult alu program = u.executeResult alu program :=
      executeResult_header alu program hmeta1
    refine ⟨u2, ?_, hisa2.trans hisa1, hmeta2.trans hmeta1⟩
    rw [List.map_cons, List.map_cons, main, hcommand, ok_bind]
    dsimp only
    rw [hrest, hsame]
    rfl

end ShaderUnit

/-! ## Units with an assembled program -/

theorem ShaderUnit.HoldsBinary.ready {alu : Alu V} {program : List Instruction}
    {b : PicoGpuBinary} (hb : Parsed program b) {u : ShaderUnit V} (h : u.HoldsBinary b) :
    u.Ready alu program := by
  have hruns : u.Runs b := h.isaMetadata
  have hlength : u.isaMetadata.programLength.toNat = (programDwords program).length := by
    rw [hruns.isaMetadata, ← hb.code]
    exact hb.programLength
  refine ⟨hruns.countsFit hb.accepted, ?_, hlength, ?_, hb.readable alu⟩
  · rw [hruns.isaMetadata]
    show nonZeroCountToInt b.header.outputsCount ≤ 3
    rw [hb.accepted.outputsCount_eq]
    exact (hb.accepted.wellFormed .output).count
  · intro j hj
    have hisa : (List.range (programDwords program).length).map u.isa = programDwords program := by
      rw [← hlength, h.isa, hb.code]
    rw [List.getElem_of_eq hisa.symm hj, List.getElem_map, List.getElem_range]

/-- The dwords are the binary's, apart from `hasNextCommand`. -/
theorem showsBinary_of_withoutNextCommand {program : List Instruction} {b : PicoGpuBinary}
    (hb : Parsed program b) {data : List Dword}
    (h : withoutNextCommand data = withoutNextCommand b.getData) : ShowsBinary data b := by
  obtain ⟨hheader, hcode⟩ := showsBinary_getData hb
  have hofRaw := ofRaw_withoutNextCommand h
  have htail : ∀ j, data.getD (Isa.commandSizeInDwords + j) 0 =
      b.getData.getD (Isa.commandSizeInDwords + j) 0 := by
    intro j
    have hindex : Isa.commandSizeInDwords + j = 2 + j + 1 := by
      rw [Isa.commandSizeInDwords]
      omega
    rw [hindex, List.getD_eq_getElem?_getD, List.getD_eq_getElem?_getD, ← List.getElem?_tail,
      ← List.getElem?_tail, withoutNextCommand_tail h]
  generalize (CommandStoreIsa.ofRaw fun k => b.getData.getD k 0) = command at hheader hcode hofRaw
  constructor
  · rw [hofRaw]
    exact hheader
  · rw [hofRaw, List.map_congr_left fun j _ => htail j]
    exact hcode

theorem holdsBinary_processStoreIsa {data : List Dword} {b : PicoGpuBinary}
    (h : ShowsBinary data b) (u : ShaderUnit V) : (u.processStoreIsaCommand data).HoldsBinary b := by
  refine ⟨h.header, ?_⟩
  rw [← h.code]
  apply List.map_congr_left
  intro j hj
  exact if_pos (List.mem_range.mp hj)

/-! ## Batches -/

/-- `ExecuteIsa` with the threads of a batch, from the dwords of each of them. -/
def UnitCommand.batch (alu : Alu V) (uniforms attributes : List V) (threads : List (List V)) :
    UnitCommand V :=
  .executeIsa (intToNonZeroCount 5 threads.length) fun k =>
    (threads.flatten ++ uniforms ++ attributes).getD k alu.zero

/-- What a unit sends for batches that it executes one after the other. -/
def ShaderUnit.runBatches (alu : Alu V) (uniforms attributes : List V)
    (batches : List (List (List V))) (u : ShaderUnit V) : Except FatalError (List V) := do
  let (_, results) ← u.main alu (batches.map (.batch alu uniforms attributes))
  return results.flatMap CommandResult.outputStream

namespace PicoGpuBinary

/-- The dwords of one thread in a request. -/
def threadDwords (b : PicoGpuBinary) : Nat :=
  if b.header.programType = .fragmentShader then 2 else b.inputs.sizes.sum

end PicoGpuBinary

/-- Thread `l` of a batch is at its place in the stream. -/
theorem getD_flatten {threads : List (List V)} {size : Nat}
    (hthreads : ∀ thread ∈ threads, thread.length = size) (rest : List V) (zero : V) {l k : Nat}
    (hl : l < threads.length) (hk : k < size) :
    (threads.flatten ++ rest).getD (l * size + k) zero = threads[l].getD k zero := by
  induction threads generalizing l with
  | nil => cases hl
  | cons thread threads ih =>
    have hthread : thread.length = size := hthreads thread List.mem_cons_self
    rw [List.flatten_cons, List.append_assoc]
    cases l with
    | zero =>
      rw [Nat.zero_mul, Nat.zero_add, List.getD_append _ _ _ _ (by omega), List.getElem_cons_zero]
    | succ l =>
      have hindex : (l + 1) * size + k = thread.length + (l * size + k) := by
        rw [Nat.succ_mul, hthread]
        omega
      rw [hindex, List.getD_append_right _ _ _ _ (Nat.le_add_right _ _), Nat.add_sub_cancel_left,
        List.getElem_cons_succ]
      exact ih (fun t ht => hthreads t (List.mem_cons_of_mem _ ht)) (Nat.lt_of_succ_lt_succ hl)

theorem length_flatten {threads : List (List V)} {size : Nat}
    (hthreads : ∀ thread ∈ threads, thread.length = size) :
    threads.flatten.length = threads.length * size := by
  rw [List.length_flatten, List.map_congr_left hthreads, List.map_const', List.sum_replicate_nat]

/-- The results of a batch are those of its threads. -/
theorem executeResult_batch {alu : Alu V} {program : List Instruction} {u : ShaderUnit V}
    (hu : u.CountsFit) {uniforms attributes : List V}
    (huniforms : uniforms.length = u.uniformsDwords) {threads : List (List V)}
    (hcount : 1 ≤ threads.length ∧ threads.length ≤ 32)
    (hthreads : ∀ thread ∈ threads, thread.length = u.threadDwords) :
    (u.executeResult alu program (intToNonZeroCount 5 threads.length) fun k =>
      (threads.flatten ++ uniforms ++ attributes).getD k alu.zero).outputStream =
      threads.flatMap fun thread => u.threadOutputs alu program (fun k => thread.getD k alu.zero)
        (fun k => uniforms.getD k alu.zero) (fun k => attributes.getD k alu.zero) := by
  have hflat := length_flatten hthreads
  unfold ShaderUnit.executeResult
  dsimp only
  rw [nonZeroCount_roundtrip hcount.1 hcount.2]
  calc (List.range threads.length).flatMap _
      = (List.range threads.length).flatMap fun l => u.threadOutputs alu program
          (fun k => (threads.getD l []).getD k alu.zero) (fun k => uniforms.getD k alu.zero)
          (fun k => attributes.getD k alu.zero) := by
        apply List.flatMap_congr
        intro l hl
        have hl : l < threads.length := List.mem_range.mp hl
        -- thread `l` reads its own dwords, and the uniforms and attributes behind those of all threads
        refine ShaderUnit.threadOutputs_congr hu alu program ?_ ?_ ?_
        · intro k hk
          rw [List.append_assoc, getD_flatten hthreads _ _ hl hk, List.getD_eq_getElem _ _ hl]
        · intro k hk
          rw [List.append_assoc, ← hflat,
            List.getD_append_right _ _ _ _ (Nat.le_add_right _ _), Nat.add_sub_cancel_left,
            List.getD_append _ _ _ _ (by omega)]
        · intro k _
          rw [← hflat, ← huniforms, ← List.length_append,
            List.getD_append_right _ _ _ _ (Nat.le_add_right _ _), Nat.add_sub_cancel_left]
    _ = threads.flatMap _ := by
        have hmap : (List.range threads.length).map (fun l => threads.getD l []) = threads := by
          apply List.ext_getElem
          · rw [List.length_map, List.length_range]
          · intro l hl hl'
            rw [List.getElem_map, List.getElem_range, List.getD_eq_getElem _ _ hl']
        conv_rhs => rw [← hmap]
        rw [List.flatMap_map]

theorem runBatches_eq {alu : Alu V} {program : List Instruction} {u : ShaderUnit V}
    (hu : u.Ready alu program) {uniforms attributes : List V}
    (huniforms : uniforms.length = u.uniformsDwords) {batches : List (List (List V))}
    (hbatches : ∀ batch ∈ batches, 1 ≤ batch.length ∧ batch.length ≤ 32)
    (hthreads : ∀ thread ∈ batches.flatten, thread.length = u.threadDwords) :
    u.runBatches alu uniforms attributes batches = .ok (batches.flatten.flatMap fun thread =>
      u.threadOutputs alu program (fun k => thread.getD k alu.zero)
        (fun k => uniforms.getD k alu.zero) (fun k => attributes.getD k alu.zero)) := by
  let execute : List (List V) → BitVec 5 × (Nat → V) := fun threads =>
    (intToNonZeroCount 5 threads.length,
      fun k => (threads.flatten ++ uniforms ++ attributes).getD k alu.zero)
  obtain ⟨u', hmain, -⟩ := ShaderUnit.main_executes (batches.map execute) hu
  rw [List.map_map, List.map_map] at hmain
  have hcommands : u.main alu (batches.map (.batch alu uniforms attributes)) = _ := hmain
  unfold ShaderUnit.runBatches
  rw [hcommands, ok_bind]
  show Except.ok _ = Except.ok _
  congr 1
  rw [List.flatMap_map, List.flatten_eq_flatMap, List.flatMap_assoc]
  apply List.flatMap_congr
  intro batch hbatch
  exact executeResult_batch hu.counts huniforms (hbatches batch hbatch) fun thread hthread =>
    hthreads thread (List.mem_flatten_of_mem hbatch hthread)

theorem ShaderUnit.HoldsBinary.threadDwords {b : PicoGpuBinary} (hb : b.Accepted)
    {u : ShaderUnit V} (h : u.HoldsBinary b) : u.threadDwords = b.threadDwords := by
  have hruns : u.Runs b := h.isaMetadata
  rw [hruns.threadDwords hb, PicoGpuBinary.threadDwords]
  split
  · rfl
  · next hvs =>
    rw [streamInputs_vs hvs]
    rfl

/-- A unit of which only the header is given. -/
def PicoGpuBinary.headerUnit (alu : Alu V) (b : PicoGpuBinary) : ShaderUnit V where
  isaMetadata := b.header
  isa := fun _ => 0
  gpr := fun _ _ => .replicate alu.zero
  pc := 0
  uniformDwords := fun _ => alu.zero

/-- A unit that holds the binary sends for each thread what the header says. -/
theorem ShaderUnit.HoldsBinary.runBatches {program : List Instruction} {b : PicoGpuBinary}
    (hb : Parsed program b) (alu : Alu V) {u : ShaderUnit V} (hu : u.HoldsBinary b)
    {uniforms attributes : List V} (huniforms : uniforms.length = b.uniforms.sizes.sum)
    {batches : List (List (List V))}
    (hbatches : ∀ batch ∈ batches, 1 ≤ batch.length ∧ batch.length ≤ 32)
    (hthreads : ∀ thread ∈ batches.flatten, thread.length = b.threadDwords) :
    u.runBatches alu uniforms attributes batches = .ok (batches.flatten.flatMap fun thread =>
      (b.headerUnit alu).threadOutputs alu program (fun k => thread.getD k alu.zero)
        (fun k => uniforms.getD k alu.zero) (fun k => attributes.getD k alu.zero)) := by
  have hruns : u.Runs b := hu.isaMetadata
  have hheader : u.threadOutputs alu program = (b.headerUnit alu).threadOutputs alu program :=
    ShaderUnit.threadOutputs_header alu program hruns.isaMetadata
  rw [runBatches_eq (hu.ready hb) (by rw [hruns.uniformsDwords hb.accepted, huniforms]) hbatches
    (by rw [hu.threadDwords hb.accepted]; exact hthreads), hheader]

/-- **However the threads of a request are split into batches, a unit that holds the
    program sends what it sends for each of them alone: a function of the thread's own
    inputs gives the outputs, for given uniforms and attributes.** -/
theorem batches_agree {p : Program} {b : PicoGpuBinary} (h : p.parse .new = .ok b) (alu : Alu V)
    {uniforms : List V} (huniforms : uniforms.length = b.uniforms.sizes.sum)
    (attributes : List V) :
    ∃ outputs : List V → List V, ∀ batches : List (List (List V)),
      (∀ batch ∈ batches, 1 ≤ batch.length ∧ batch.length ≤ 32) →
      (∀ thread ∈ batches.flatten, thread.length = b.threadDwords) →
      ∀ u v : ShaderUnit V, u.HoldsBinary b → v.HoldsBinary b →
        u.runBatches alu uniforms attributes batches = .ok (batches.flatten.flatMap outputs) ∧
        v.runBatches alu uniforms attributes (batches.flatten.map fun thread => [thread]) =
          .ok (batches.flatten.flatMap outputs) := by
  obtain ⟨program, hb⟩ := Program.parse_parsed h
  refine ⟨fun thread => (b.headerUnit alu).threadOutputs alu program
    (fun k => thread.getD k alu.zero) (fun k => uniforms.getD k alu.zero)
    (fun k => attributes.getD k alu.zero), ?_⟩
  intro batches hbatches hthreads u v hu hv
  -- the threads alone are batches as well, of one thread each
  have hflatten : (batches.flatten.map fun thread => [thread]).flatten = batches.flatten := by
    rw [← List.flatMap_def, List.flatMap_singleton']
  have halone : ∀ batch ∈ batches.flatten.map fun thread => [thread],
      1 ≤ batch.length ∧ batch.length ≤ 32 := by
    intro batch hbatch
    obtain ⟨thread, -, rfl⟩ := List.mem_map.mp hbatch
    exact ⟨Nat.le_refl 1, Nat.le_add_left 1 31⟩
  refine ⟨hu.runBatches hb alu huniforms hbatches hthreads, ?_⟩
  rw [hv.runBatches hb alu huniforms halone (by rw [hflatten]; exact hthreads), hflatten]

end

theorem binaryUnit_holdsBinary : (binaryUnit (parsedBinary .trap)).HoldsBinary (parsedBinary .trap) :=
  ⟨rfl, rfl⟩

theorem batches_agree_one_input :
    ∃ outputs : List Dword → List Dword,
      (binaryUnit (parsedBinary .trap)).runBatches integerAlu [] []
        [[[1, 2, 3, 4], [5, 6, 7, 8]], [[9, 10, 11, 12]]] =
          .ok ([[1, 2, 3, 4], [5, 6, 7, 8], [9, 10, 11, 12]].flatMap outputs) ∧
      (binaryUnit (parsedBinary .trap)).runBatches integerAlu [] []
        [[[1, 2, 3, 4]], [[5, 6, 7, 8]], [[9, 10, 11, 12]]] =
          .ok ([[1, 2, 3, 4], [5, 6, 7, 8], [9, 10, 11, 12]].flatMap outputs) := by
  obtain ⟨outputs, h⟩ := @batches_agree Dword (oneInstruction .trap) (parsedBinary .trap) rfl
    integerAlu [] rfl []
  exact ⟨outputs, h [[[1, 2, 3, 4], [5, 6, 7, 8]], [[9, 10, 11, 12]]] (by decide) (by decide) _ _
    binaryUnit_holdsBinary binaryUnit_holdsBinary⟩

section
variable {V : Type}

/-! ## Histories -/

/-- A command with a program, if any, that the assembler produced; the frontend may have set
    `hasNextCommand` in it. -/
def UnitCommand.Assembled : UnitCommand V → Prop
  | .storeIsa data => ∃ (p : Program) (b : PicoGpuBinary), p.parse .new = .ok b ∧
      withoutNextCommand data = withoutNextCommand b.getData
  | .executeIsa _ _ => True

/-- No program was stored in the unit. The other registers of a new unit are arbitrary. -/
def ShaderUnit.Initial (u : ShaderUnit V) : Prop := u.isaMetadata = .zero

/-- What a unit consumes and sends for commands after a history of others. -/
def ShaderUnit.resultsAfter (alu : Alu V) (history commands : List (UnitCommand V))
    (u : ShaderUnit V) : Except FatalError (List (CommandResult V)) := do
  let (u, _) ← u.main alu history
  let (_, results) ← u.main alu commands
  return results

theorem ShaderUnit.Initial.ready {u : ShaderUnit V} (h : u.Initial) (alu : Alu V) :
    u.Ready alu [] := by
  have hmeta : u.isaMetadata = .zero := h
  refine ⟨⟨?_, ?_⟩, ?_, ?_, fun j hj => absurd hj (Nat.not_lt_zero j), ?_⟩
  · rw [hmeta]
    decide
  · rw [hmeta]
    decide
  · rw [hmeta]
    decide
  · rw [hmeta]
    rfl
  · intro i hi
    cases hi

/-- A unit with a program performs every command, and has a program again. -/
theorem performCommand_assembled {alu : Alu V} {program : List Instruction} {u : ShaderUnit V}
    (hu : u.Ready alu program) {command : UnitCommand V} (hcommand : command.Assembled) :
    ∃ u' result program', u.performCommand alu command = .ok (u', result) ∧
      u'.Ready alu program' := by
  cases command with
  | storeIsa data =>
    obtain ⟨p, b, hparse, hdata⟩ := hcommand
    obtain ⟨program', hb⟩ := Program.parse_parsed hparse
    have hshows := showsBinary_of_withoutNextCommand hb hdata
    exact ⟨_, _, program', rfl, (holdsBinary_processStoreIsa hshows u).ready hb⟩
  | executeIsa threadCount stream =>
    obtain ⟨u', hexecute, hisa, hmeta⟩ := ShaderUnit.performCommand_executeIsa hu threadCount stream
    exact ⟨u', _, program, hexecute, hu.congr hisa hmeta⟩

theorem main_assembled {alu : Alu V} (history : List (UnitCommand V))
    (hhistory : ∀ command ∈ history, command.Assembled) {program : List Instruction}
    {u : ShaderUnit V} (hu : u.Ready alu program) :
    ∃ u' results program', u.main alu history = .ok (u', results) ∧ u'.Ready alu program' := by
  induction history generalizing program u with
  | nil => exact ⟨u, [], program, rfl, hu⟩
  | cons command history ih =>
    obtain ⟨u1, result, program1, hcommand, hu1⟩ :=
      performCommand_assembled hu (hhistory command List.mem_cons_self)
    obtain ⟨u2, results, program2, hrest, hu2⟩ :=
      ih (fun c hc => hhistory c (List.mem_cons_of_mem _ hc)) hu1
    refine ⟨u2, result :: results, program2, ?_, hu2⟩
    rw [ShaderUnit.main, hcommand, ok_bind]
    dsimp only
    rw [hrest]
    rfl

/-- **Nothing of what a unit did before shows behind a `StoreIsa`: whatever the history, the
    program is stored in as many dwords, and each `ExecuteIsa` that follows, the first one or
    a later one, consumes and sends what depends on its own inputs only.** -/
theorem history_unobservable {p : Program} {b : PicoGpuBinary} (h : p.parse .new = .ok b)
    {data : List Dword} (hdata : withoutNextCommand data = withoutNextCommand b.getData)
    (alu : Alu V) :
    ∃ (stored : CommandResult V) (outcome : BitVec 5 → (Nat → V) → CommandResult V),
      ∀ history : List (UnitCommand V), (∀ command ∈ history, command.Assembled) →
        ∀ u : ShaderUnit V, u.Initial → ∀ executes : List (BitVec 5 × (Nat → V)),
          u.resultsAfter alu history (.storeIsa data ::
              executes.map fun (threadCount, stream) => .executeIsa threadCount stream) =
            .ok (stored :: executes.map fun (threadCount, stream) => outcome threadCount stream) := by
  obtain ⟨program, hb⟩ := Program.parse_parsed h
  have hshows := showsBinary_of_withoutNextCommand hb hdata
  refine ⟨⟨Isa.commandSizeInDwords +
    (CommandStoreIsa.ofRaw fun k => data.getD k 0).programLength.toNat, []⟩,
    (b.headerUnit alu).executeResult alu program, ?_⟩
  intro history hhistory u hu executes
  obtain ⟨u1, results, program1, hmain, hu1⟩ := main_assembled history hhistory (hu.ready alu)
  have hholds : (u1.processStoreIsaCommand data).HoldsBinary b := holdsBinary_processStoreIsa hshows u1
  have hruns : (u1.processStoreIsaCommand data).Runs b := hholds.isaMetadata
  obtain ⟨u2, hexecutes, -⟩ := ShaderUnit.main_executes executes (hholds.ready hb)
  have hheader : (u1.processStoreIsaCommand data).executeResult alu program =
      (b.headerUnit alu).executeResult alu program :=
    ShaderUnit.executeResult_header alu program hruns.isaMetadata
  rw [hheader] at hexecutes
  unfold ShaderUnit.resultsAfter
  rw [hmain, ok_bind]
  dsimp only
  rw [ShaderUnit.main, ShaderUnit.performCommand, ok_bind]
  dsimp only
  rw [hexecutes]
  rfl

end

theorem history_unobservable_one_input :
    ∃ (stored : CommandResult Dword) (outcome : BitVec 5 → (Nat → Dword) → CommandResult Dword),
      ∀ history : List (UnitCommand Dword), (∀ command ∈ history, command.Assembled) →
        ∀ u : ShaderUnit Dword, u.Initial → ∀ executes : List (BitVec 5 × (Nat → Dword)),
          u.resultsAfter integerAlu history (.storeIsa (parsedBinary .trap).getData ::
              executes.map fun (threadCount, stream) => .executeIsa threadCount stream) =
            .ok (stored :: executes.map fun (threadCount, stream) => outcome threadCount stream) :=
  @history_unobservable Dword (oneInstruction .trap) (parsedBinary .trap) rfl _ rfl integerAlu

end PicoGpu
