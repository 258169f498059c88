import PicoGpu.ShaderUnitCommands

/- The stream of dwords that a shader unit reads before it runs a program: how many
   dwords there are, and where each of them goes. The header describes registers one
   behind the other, so the place of a value in the stream is a sum of the sizes
   before it. -/
namespace PicoGpu

/-! ## Sizes -/

/-- The sizes of the first `count` of three registers, as numbers. -/
def sizesOf (count : Nat) (size0 size1 size2 : BitVec 2) : List Nat :=
  [nonZeroCountToInt size0, nonZeroCountToInt size1, nonZeroCountToInt size2].take count

theorem componentsOf_eq (count : Nat) (size0 size1 size2 : BitVec 2) :
    componentsOf count size0 size1 size2 = (sizesOf count size0 size1 size2).sum := by
  match count with
  | 0 | 1 | 2 => rfl
  | count + 3 =>
    simp only [componentsOf, sizesOf, List.take_succ_cons, List.take_nil, List.sum_cons,
      List.sum_nil]
    simp [Nat.add_assoc]

/-- The registers that the fields of a header describe, with their sizes. -/
def IoFields.registers (fields : IoFields) (count : Nat) : List (RegisterIndex × Nat) :=
  [(fields.register0, nonZeroCountToInt fields.size0),
    (fields.register1, nonZeroCountToInt fields.size1),
    (fields.register2, nonZeroCountToInt fields.size2)].take count

theorem IoFields.registers_sizes (fields : IoFields) (count : Nat) :
    (fields.registers count).map Prod.snd =
      sizesOf count fields.size0 fields.size1 fields.size2 := by
  rw [IoFields.registers, List.map_take]
  rfl

/-- Where register `i` of a list starts in a stream. -/
def offsetOf (registers : List (RegisterIndex × Nat)) (i : Nat) : Nat :=
  ((registers.take i).map Prod.snd).sum

theorem offsetOf_succ_cons (register : RegisterIndex × Nat)
    (registers : List (RegisterIndex × Nat)) (i : Nat) :
    offsetOf (register :: registers) (i + 1) = register.2 + offsetOf registers i := by
  simp only [offsetOf, List.take_succ_cons, List.map_cons, List.sum_cons]

/-- A register ends where the stream does, or before. -/
theorem offsetOf_add_le {registers : List (RegisterIndex × Nat)} {i : Nat}
    (hi : i < registers.length) :
    offsetOf registers i + registers[i].2 ≤ (registers.map Prod.snd).sum := by
  induction registers generalizing i with
  | nil => exact nomatch hi
  | cons register registers ih =>
    cases i with
    | zero =>
      simp only [offsetOf, List.take_zero, List.map_nil, List.sum_nil, List.getElem_cons_zero,
        List.map_cons, List.sum_cons]
      omega
    | succ i =>
      have hle := ih (Nat.lt_of_succ_lt_succ hi)
      rw [offsetOf_succ_cons, List.getElem_cons_succ, List.map_cons, List.sum_cons]
      omega

section
variable {V : Type}

theorem copyComponents_congr {componentsCount : Nat} {values values' : Nat → V}
    (h : ∀ k < componentsCount, values k = values' k) (r : VectorRegister V) :
    copyComponents componentsCount values r = copyComponents componentsCount values' r := by
  apply VectorRegister.ext_get
  intro j
  rw [copyComponents_get, copyComponents_get]
  split
  · next hj => exact h j hj
  · rfl

namespace ShaderUnit

/-! ## What the header says -/

/-- The registers of the inputs, with the number of dwords that the stream has for each. -/
def inputsOf (u : ShaderUnit V) : List (RegisterIndex × Nat) :=
  let registers := u.isaMetadata.inputs.registers (nonZeroCountToInt u.isaMetadata.inputsCount)
  if u.isFs then registers.modifyHead fun (register, _) => (register, 3) else registers

def uniformsOf (u : ShaderUnit V) : List (RegisterIndex × Nat) :=
  u.isaMetadata.uniforms.registers u.isaMetadata.uniformsCount.toNat

def outputsOf (u : ShaderUnit V) : List (RegisterIndex × Nat) :=
  u.isaMetadata.outputs.registers (nonZeroCountToInt u.isaMetadata.outputsCount)

theorem inputRegisters_eq {u : ShaderUnit V} (h : u.CountsFit) :
    u.inputRegisters = .ok u.inputsOf := by
  have hcount : u.isaMetadata.inputsCount.toNat < 3 := h.inputs
  unfold inputRegisters inputsOf nonZeroCountToInt
  generalize u.isaMetadata.inputsCount.toNat = count at hcount ⊢
  obtain rfl | rfl | rfl : count = 0 ∨ count = 1 ∨ count = 2 := by omega
  all_goals
    cases hfs : u.isFs
    · rfl
    · rfl

theorem outputRegisters_eq {u : ShaderUnit V}
    (h : nonZeroCountToInt u.isaMetadata.outputsCount ≤ 3) :
    u.outputRegisters = .ok u.outputsOf := by
  have hcount : u.isaMetadata.outputsCount.toNat < 3 := h
  unfold outputRegisters outputsOf nonZeroCountToInt
  generalize u.isaMetadata.outputsCount.toNat = count at hcount ⊢
  obtain rfl | rfl | rfl : count = 0 ∨ count = 1 ∨ count = 2 := by omega
  all_goals rfl

theorem uniformsTotalComponentCount_eq {u : ShaderUnit V} (h : u.CountsFit) :
    u.uniformsTotalComponentCount = .ok (u.uniformsOf.map Prod.snd).sum := by
  have hcount := h.uniforms
  unfold uniformsTotalComponentCount uniformsOf
  generalize u.isaMetadata.uniformsCount.toNat = count at hcount ⊢
  simp only [IoFields.registers, List.map_take]
  obtain rfl | rfl | rfl | rfl : count = 0 ∨ count = 1 ∨ count = 2 ∨ count = 3 := by omega
  · rfl
  · show Except.ok (0 + _) = Except.ok (_ + 0)
    rw [Nat.zero_add, Nat.add_zero]
  · show Except.ok (0 + _ + _) = Except.ok (_ + (_ + 0))
    rw [Nat.zero_add, Nat.add_zero]
  · show Except.ok (0 + _ + _ + _) = Except.ok (_ + (_ + (_ + 0)))
    rw [Nat.zero_add, Nat.add_zero, ← Nat.add_assoc]

/-- The dwords of the calls of `receiveArray` in `initializeInputRegisters`. -/
def inputDwordsCount (threadCount : Nat) (u : ShaderUnit V) : Except FatalError Nat := do
  let inputTotalComponentCount := ((← u.inputRegisters).map Prod.snd).sum
  let uniformsTotalComponentCount ← u.uniformsTotalComponentCount
  if u.isFs then
    return threadCount * 2 + uniformsTotalComponentCount +
      verticesInPrimitive * inputTotalComponentCount
  else return threadCount * inputTotalComponentCount + uniformsTotalComponentCount

end ShaderUnit

/-! ## One lane -/

/-- The registers of a lane after values of a stream were stored in them one behind the
    other; `start` is what a register holds before it gets its components. -/
def storeRegisters (start : VectorRegister V → VectorRegister V) :
    List (RegisterIndex × Nat) → (Nat → V) → LaneFile V → LaneFile V
  | [], _, file => file
  | (register, componentsCount) :: registers, dwords, file =>
    storeRegisters start registers (fun k => dwords (componentsCount + k))
      (Function.update file register (copyComponents componentsCount dwords (start (file register))))

theorem storeRegisters_of_notMem (start : VectorRegister V → VectorRegister V)
    {registers : List (RegisterIndex × Nat)} {r : RegisterIndex}
    (hr : r ∉ registers.map Prod.fst) (dwords : Nat → V) (file : LaneFile V) :
    storeRegisters start registers dwords file r = file r := by
  induction registers generalizing dwords file with
  | nil => rfl
  | cons register registers ih =>
    rw [List.map_cons, List.mem_cons, not_or] at hr
    rw [storeRegisters, ih hr.2, Function.update_of_ne hr.1]

/-- Each register gets the values at its offset. -/
theorem storeRegisters_at (start : VectorRegister V → VectorRegister V)
    {registers : List (RegisterIndex × Nat)} (hnd : (registers.map Prod.fst).Nodup) {i : Nat}
    (hi : i < registers.length) (dwords : Nat → V) (file : LaneFile V) :
    storeRegisters start registers dwords file registers[i].1 =
      copyComponents registers[i].2 (fun k => dwords (offsetOf registers i + k))
        (start (file registers[i].1)) := by
  induction registers generalizing i dwords file with
  | nil => exact nomatch hi
  | cons register registers ih =>
    rw [List.map_cons, List.nodup_cons] at hnd
    rw [storeRegisters]
    cases i with
    | zero =>
      rw [List.getElem_cons_zero, storeRegisters_of_notMem start hnd.1, Function.update_self]
      apply copyComponents_congr
      intro k _
      simp only [offsetOf, List.take_zero, List.map_nil, List.sum_nil, Nat.zero_add]
    | succ i =>
      have hi : i < registers.length := Nat.lt_of_succ_lt_succ hi
      have hne : registers[i].1 ≠ register.1 := by
        intro heq
        exact hnd.1 (heq ▸ List.mem_map_of_mem (List.getElem_mem hi))
      rw [List.getElem_cons_succ, ih hnd.2 hi, Function.update_of_ne hne]
      apply copyComponents_congr
      intro k _
      rw [offsetOf_succ_cons, Nat.add_assoc]

/-- The values beyond the sizes of the registers do not matter. -/
theorem storeRegisters_congr (start : VectorRegister V → VectorRegister V)
    {registers : List (RegisterIndex × Nat)} {dwords dwords' : Nat → V}
    (h : ∀ k < (registers.map Prod.snd).sum, dwords k = dwords' k) (file : LaneFile V) :
    storeRegisters start registers dwords file = storeRegisters start registers dwords' file := by
  induction registers generalizing dwords dwords' file with
  | nil => rfl
  | cons register registers ih =>
    rw [List.map_cons, List.sum_cons] at h
    rw [storeRegisters, storeRegisters, copyComponents_congr fun k hk => h k (by omega)]
    exact ih (fun k hk => h _ (by omega)) _

/-! ## The threads of a request -/

theorem storeThreadInputs_eq (inputs : List (RegisterIndex × Nat)) (perThreadDwords : Nat → V)
    (threadIndex : Nat) (s : (Nat → LaneFile V) × Nat) :
    storeThreadInputs inputs perThreadDwords s threadIndex =
      (Function.update s.1 threadIndex
        (storeRegisters id inputs (fun k => perThreadDwords (s.2 + k)) (s.1 threadIndex)),
        s.2 + (inputs.map Prod.snd).sum) := by
  induction inputs generalizing s with
  | nil => exact Prod.ext (Function.update_eq_self _ _).symm rfl
  | cons input inputs ih =>
    obtain ⟨gpr, stored⟩ := s
    unfold storeThreadInputs at ih ⊢
    rw [List.foldl_cons, ih]
    refine Prod.ext ?_ ?_
    · simp only [Function.update_idem, Function.update_self, storeRegisters, id, Nat.add_assoc]
    · show stored + input.2 + _ = stored + _
      rw [List.map_cons, List.sum_cons, Nat.add_assoc]

/-- The threads take the dwords of their inputs one after the other. -/
theorem storeInputs_eq (inputs : List (RegisterIndex × Nat)) (perThreadDwords : Nat → V)
    (gpr : Nat → LaneFile V) (threadCount : Nat) :
    (List.range threadCount).foldl (storeThreadInputs inputs perThreadDwords) (gpr, 0) =
      (fun l => if l < threadCount then
        storeRegisters id inputs (fun k => perThreadDwords (l * (inputs.map Prod.snd).sum + k))
          (gpr l)
        else gpr l, threadCount * (inputs.map Prod.snd).sum) := by
  induction threadCount with
  | zero =>
    refine Prod.ext (funext fun l => ?_) (Nat.zero_mul _).symm
    dsimp only
    rw [if_neg (Nat.not_lt_zero l)]
    rfl
  | succ threadCount ih =>
    rw [List.range_succ, List.foldl_append, ih, List.foldl_cons, List.foldl_nil,
      storeThreadInputs_eq]
    refine Prod.ext (funext fun l => ?_) (Nat.succ_mul _ _).symm
    dsimp only
    by_cases hl : l = threadCount
    · subst hl
      rw [Function.update_self, if_neg (Nat.lt_irrefl l), if_pos (Nat.lt_succ_self l)]
    · have hiff : l < threadCount ↔ l < threadCount + 1 := by omega
      rw [Function.update_of_ne hl]
      simp only [hiff]

/-- A value that all threads get in a register. -/
theorem writeLanes_lane (threadCount : Nat) (register : RegisterIndex) (value : VectorRegister V)
    (gpr : Nat → LaneFile V) {l : Nat} (hl : l < threadCount) :
    writeLanes threadCount register value gpr l = Function.update (gpr l) register value :=
  if_pos hl

theorem writeLanes_other (threadCount : Nat) (register : RegisterIndex) (value : VectorRegister V)
    (gpr : Nat → LaneFile V) {l : Nat} (hl : ¬ l < threadCount) :
    writeLanes threadCount register value gpr l = gpr l :=
  if_neg hl

/-- The attributes go to the registers that the unit allocates for them. -/
theorem foldlM_storeVertexAttribute_eq (alu : Alu V) (threadCount : Nat) (dwords : Nat → V)
    (inputs : List (RegisterIndex × Nat)) {s : AttributeState V}
    (hstart : s.registerAllocator.startRegisterToAllocate ≤ 16)
    (hlen : inputs.length ≤ s.registerAllocator.free.length) :
    ∃ a, inputs.foldlM (storeVertexAttribute alu threadCount dwords) s = .ok
      { gpr := fun l => if l < threadCount then
          storeRegisters (fun _ => .replicate alu.zero)
            (s.registerAllocator.free.zip (inputs.map Prod.snd)) (fun k => dwords (s.stored + k))
            (s.gpr l)
          else s.gpr l
        stored := s.stored + (inputs.map Prod.snd).sum
        registerAllocator := a } := by
  induction inputs generalizing s with
  | nil =>
    refine ⟨s.registerAllocator, ?_⟩
    show Except.ok s = _
    simp only [List.map_nil, List.zip_nil_right, storeRegisters, ite_self, List.sum_nil,
      Nat.add_zero]
  | cons input inputs ih =>
    cases hfree : s.registerAllocator.free with
    | nil =>
      rw [hfree] at hlen
      exact nomatch hlen
    | cons r rest =>
      rw [hfree] at hlen
      obtain ⟨a, halloc, hrest, hstart⟩ := RegisterAllocator.allocate_ok hstart hfree
      have hs1 : storeVertexAttribute alu threadCount dwords s input = .ok
          ⟨writeLanes threadCount r (copyComponents input.2
            (fun j => dwords (s.stored + j)) (.replicate alu.zero)) s.gpr, s.stored + input.2, a⟩ := by
        unfold storeVertexAttribute
        rw [halloc]
        rfl
      obtain ⟨a', ha'⟩ := @ih ⟨writeLanes threadCount r (copyComponents input.2
        (fun j => dwords (s.stored + j)) (.replicate alu.zero)) s.gpr, s.stored + input.2, a⟩ hstart
        (by rw [hrest]; exact Nat.le_of_succ_le_succ hlen)
      refine ⟨a', ?_⟩
      rw [List.foldlM_cons, hs1, ok_bind, ha', hrest, List.map_cons, List.sum_cons,
        List.zip_cons_cons, ← Nat.add_assoc]
      congr 2
      funext l
      split
      · next hl => simp only [writeLanes_lane _ _ _ _ hl, storeRegisters, Nat.add_assoc]
      · next hl => exact writeLanes_other _ _ _ _ hl

/-! ## The registers of the attributes -/

/-- Taking a register takes at most one of the free ones. -/
theorem length_free_setBit_le (mask : BitVec 16) (r : RegisterIndex) :
    (RegisterAllocator.ofMask mask).free.length ≤
      (RegisterAllocator.ofMask (setBit mask r.val)).free.length + 1 := by
  cases hset : isBitSet mask r.val with
  | false => exact Nat.le_of_eq (RegisterAllocator.length_free_setBit hset).symm
  | true =>
    have hsame : RegisterAllocator.clearBits (setBit mask r.val) 0 =
        RegisterAllocator.clearBits mask 0 := by
      apply List.filter_congr
      intro j hj
      obtain ⟨-, hj⟩ := List.mem_range'_1.mp hj
      rw [RegisterAllocator.isBitSet_setBit mask r.val (by omega)]
      by_cases hjr : j = r.val
      · rw [hjr, hset, Bool.true_or]
      · rw [decide_eq_false hjr, Bool.or_false]
    have hfree : (RegisterAllocator.ofMask (setBit mask r.val)).free =
        (RegisterAllocator.ofMask mask).free :=
      congrArg (List.map (Fin.ofNat 16)) hsame
    rw [hfree]
    exact Nat.le_succ _

/-- At most three registers are inputs. -/
theorem length_free_ofIsaMetadata (isaMetadata : CommandStoreIsa) :
    13 ≤ (RegisterAllocator.ofIsaMetadata isaMetadata).free.length := by
  have hnone : (RegisterAllocator.ofMask 0).free.length = 16 := by decide
  have h0 := length_free_setBit_le 0 isaMetadata.inputs.register0
  have h1 := length_free_setBit_le (setBit 0 isaMetadata.inputs.register0.val)
    isaMetadata.inputs.register1
  have h2 := length_free_setBit_le (setBit (setBit 0 isaMetadata.inputs.register0.val)
    isaMetadata.inputs.register1.val) isaMetadata.inputs.register2
  have hmask : RegisterAllocator.ofIsaMetadata isaMetadata =
      .ofMask (RegisterAllocator.constructUsedRegistersMaskFromIsaMetadata isaMetadata) := rfl
  rw [hmask, RegisterAllocator.constructUsedRegistersMaskFromIsaMetadata, nonZeroCountToInt,
    if_pos (Nat.succ_pos _)]
  split
  · split <;> omega
  · split
    · omega
    · omega

namespace ShaderUnit

/-- The registers of the attributes of all vertices, in the order of the stream. -/
def attributesOf (u : ShaderUnit V) : List (RegisterIndex × Nat) :=
  (RegisterAllocator.ofIsaMetadata u.isaMetadata).free.zip
    ((u.inputsOf ++ u.inputsOf ++ u.inputsOf).map Prod.snd)

/-! ## What the unit receives -/

theorem inputsOf_length (u : ShaderUnit V) (h : u.CountsFit) :
    u.inputsOf.length = nonZeroCountToInt u.isaMetadata.inputsCount := by
  have hcount := h.inputs
  have hregisters : (u.isaMetadata.inputs.registers
      (nonZeroCountToInt u.isaMetadata.inputsCount)).length =
        nonZeroCountToInt u.isaMetadata.inputsCount := by
    rw [IoFields.registers, List.length_take]
    exact Nat.min_eq_left hcount
  unfold inputsOf
  dsimp only
  split
  · rw [List.length_modifyHead, hregisters]
  · exact hregisters

/-- There is a register for every attribute. -/
theorem attributesOf_length {u : ShaderUnit V} (h : u.CountsFit) :
    (u.inputsOf ++ u.inputsOf ++ u.inputsOf).length ≤
      (RegisterAllocator.ofIsaMetadata u.isaMetadata).free.length := by
  have hfree := length_free_ofIsaMetadata u.isaMetadata
  have hcount := h.inputs
  rw [List.length_append, List.length_append, inputsOf_length u h]
  omega

theorem attributesOf_sizes {u : ShaderUnit V} (h : u.CountsFit) :
    (u.attributesOf.map Prod.snd).sum = verticesInPrimitive * (u.inputsOf.map Prod.snd).sum := by
  have hlength := attributesOf_length h
  rw [attributesOf, List.map_snd_zip (by rwa [List.length_map]), List.map_append, List.map_append,
    List.sum_append, List.sum_append, verticesInPrimitive]
  omega

/-- The dwords of one thread. -/
def threadDwords (u : ShaderUnit V) : Nat :=
  if u.isFs then 2 else (u.inputsOf.map Prod.snd).sum

def uniformsDwords (u : ShaderUnit V) : Nat := (u.uniformsOf.map Prod.snd).sum

/-- The registers of a lane when its program starts, from the dwords of its thread and
    the dwords of the attributes. -/
def startLane (alu : Alu V) (u : ShaderUnit V) (perThread attributes : Nat → V)
    (file : LaneFile V) : LaneFile V :=
  if u.isFs then
    let position := (u.inputsOf.getD 0 (0, 0)).1
    storeRegisters (fun _ => .replicate alu.zero) u.attributesOf attributes
      (Function.update file position { file position with x := perThread 0, y := perThread 1 })
  else storeRegisters id u.inputsOf perThread file

theorem inputDwordsCount_eq {u : ShaderUnit V} (h : u.CountsFit) (threadCount : Nat) :
    u.inputDwordsCount threadCount = .ok (threadCount * u.threadDwords + u.uniformsDwords +
      if u.isFs then verticesInPrimitive * (u.inputsOf.map Prod.snd).sum else 0) := by
  unfold inputDwordsCount threadDwords
  rw [inputRegisters_eq h, uniformsTotalComponentCount_eq h, ok_bind, ok_bind]
  cases u.isFs with
  | true => rfl
  | false => rfl

/-- **Each lane starts from the dwords of its thread, and all of them share the rest of
    the stream.** -/
theorem initializeInputRegisters_eq {u : ShaderUnit V} (h : u.CountsFit) (alu : Alu V)
    (threadCount : Nat) (stream : Nat → V) :
    u.initializeInputRegisters alu threadCount stream = .ok { u with
      gpr := fun l => if l < threadCount then
          u.startLane alu (fun k => stream (l * u.threadDwords + k))
            (fun k => stream (threadCount * u.threadDwords + u.uniformsDwords + k)) (u.gpr l)
        else u.gpr l
      uniformDwords := fun k =>
        if k < u.uniformsDwords then stream (threadCount * u.threadDwords + k) else alu.zero } := by
  unfold initializeInputRegisters startLane threadDwords
  rw [inputRegisters_eq h, uniformsTotalComponentCount_eq h, ok_bind, ok_bind]
  cases hfs : u.isFs with
  | false =>
    simp only [Bool.false_eq_true, if_false, storeInputs_eq]
    rfl
  | true =>
    simp only [if_true]
    obtain ⟨a, ha⟩ := @foldlM_storeVertexAttribute_eq V alu threadCount
      (fun k => stream (threadCount * 2 + (u.uniformsOf.map Prod.snd).sum + k))
      (u.inputsOf ++ u.inputsOf ++ u.inputsOf)
      ⟨storePosition threadCount (u.inputsOf.getD 0 (0, 0)).1 stream u.gpr, 0,
        .ofIsaMetadata u.isaMetadata⟩ (Nat.zero_le _) (attributesOf_length h)
    rw [storeVertexAttributes_eq, ha, ok_bind]
    show Except.ok _ = Except.ok _
    congr 2
    funext l
    split
    · next hl =>
      simp only [Nat.zero_add, storePosition, if_pos hl]
      rfl
    · next hl => simp only [storePosition, if_neg hl]

/-! ## Where a lane has its inputs -/

theorem startLane_vs {u : ShaderUnit V} (hvs : u.isFs = false)
    (hnd : (u.inputsOf.map Prod.fst).Nodup) (alu : Alu V) (perThread attributes : Nat → V)
    (file : LaneFile V) {i : Nat} (hi : i < u.inputsOf.length) (k : Fin 4) :
    (u.startLane alu perThread attributes file u.inputsOf[i].1).get k =
      if k.val < u.inputsOf[i].2 then perThread (offsetOf u.inputsOf i + k)
      else (file u.inputsOf[i].1).get k := by
  unfold startLane
  rw [hvs, if_neg (by decide), storeRegisters_at id hnd hi, copyComponents_get]
  rfl

/-- The registers of the attributes are free ones, and they differ. -/
theorem attributesOf_fst (u : ShaderUnit V) :
    u.attributesOf.map Prod.fst = (RegisterAllocator.ofIsaMetadata u.isaMetadata).free.take
      (u.inputsOf ++ u.inputsOf ++ u.inputsOf).length := by
  apply List.ext_getElem
  · rw [List.length_map, attributesOf, List.length_zip, List.length_map, List.length_take,
      Nat.min_comm]
  · intro i hi hi'
    simp only [attributesOf, List.getElem_map, List.getElem_zip, List.getElem_take]

theorem attributesOf_nodup (u : ShaderUnit V) :
    (u.attributesOf.map Prod.fst).Nodup := by
  rw [attributesOf_fst]
  exact List.Nodup.sublist (List.take_sublist _ _) (RegisterAllocator.free_nodup _)

/-- The first input keeps its register for itself. -/
theorem position_not_free (u : ShaderUnit V) :
    u.isaMetadata.inputs.register0 ∉ (RegisterAllocator.ofIsaMetadata u.isaMetadata).free := by
  have hset : ∀ mask : BitVec 16, ∀ r : RegisterIndex, ∀ i : Nat,
      isBitSet mask r.val = true → isBitSet (setBit mask i) r.val = true := by
    intro mask r i hmask
    rw [RegisterAllocator.isBitSet_setBit mask i r.isLt, hmask, Bool.true_or]
  have hfirst : isBitSet (setBit (0 : BitVec 16) u.isaMetadata.inputs.register0.val)
      u.isaMetadata.inputs.register0.val = true := by
    rw [RegisterAllocator.isBitSet_setBit _ _ u.isaMetadata.inputs.register0.isLt,
      decide_eq_true rfl, Bool.or_true]
  have hmask : isBitSet (RegisterAllocator.constructUsedRegistersMaskFromIsaMetadata u.isaMetadata)
      u.isaMetadata.inputs.register0.val = true := by
    rw [RegisterAllocator.constructUsedRegistersMaskFromIsaMetadata, nonZeroCountToInt,
      if_pos (Nat.succ_pos _)]
    split
    · split
      · exact hset _ _ _ (hset _ _ _ hfirst)
      · exact hset _ _ _ hfirst
    · split
      · exact hset _ _ _ hfirst
      · exact hfirst
  intro hfree
  have hclear := RegisterAllocator.mem_free.mp hfree
  rw [hmask] at hclear
  exact nomatch hclear

theorem startLane_position {u : ShaderUnit V} (hfs : u.isFs = true)
    (alu : Alu V) (perThread attributes : Nat → V) (file : LaneFile V) :
    u.startLane alu perThread attributes file u.isaMetadata.inputs.register0 =
      { file u.isaMetadata.inputs.register0 with x := perThread 0, y := perThread 1 } := by
  have hposition : (u.inputsOf.getD 0 (0, 0)).1 = u.isaMetadata.inputs.register0 := by
    unfold inputsOf
    rw [hfs, nonZeroCountToInt]
    rfl
  have hnotMem : u.isaMetadata.inputs.register0 ∉ u.attributesOf.map Prod.fst := by
    rw [attributesOf_fst]
    exact fun hmem => u.position_not_free (List.mem_of_mem_take hmem)
  unfold startLane
  rw [if_pos hfs]
  dsimp only
  rw [hposition, storeRegisters_of_notMem _ hnotMem, Function.update_self]

/-- Attribute `i` of vertex `v` is in free register `v * inputsOf.length + i`. -/
theorem startLane_attribute {u : ShaderUnit V} (h : u.CountsFit) (hfs : u.isFs = true)
    (alu : Alu V) (perThread attributes : Nat → V) (file : LaneFile V) {v i : Nat}
    (hv : v < verticesInPrimitive) (hi : i < u.inputsOf.length) (k : Fin 4) :
    (u.startLane alu perThread attributes file ((RegisterAllocator.ofIsaMetadata
      u.isaMetadata).free.getD (v * u.inputsOf.length + i) 0)).get k =
      if k.val < u.inputsOf[i].2 then
        attributes (v * (u.inputsOf.map Prod.snd).sum + offsetOf u.inputsOf i + k)
      else alu.zero := by
  obtain ⟨hsize, hoffset⟩ := vertexAttribute_at u.inputsOf hv hi
  have hlength := attributesOf_length h
  have hindex : v * u.inputsOf.length + i < (u.inputsOf ++ u.inputsOf ++ u.inputsOf).length := by
    have hv : v ≤ 2 := Nat.le_of_lt_succ hv
    have hmul := Nat.mul_le_mul_right u.inputsOf.length hv
    rw [List.length_append, List.length_append]
    omega
  have hattributes : v * u.inputsOf.length + i < u.attributesOf.length := by
    rw [attributesOf, List.length_zip, List.length_map]
    omega
  -- the free registers go to the attributes vertex by vertex
  have hregister : u.attributesOf[v * u.inputsOf.length + i] =
      ((RegisterAllocator.ofIsaMetadata u.isaMetadata).free.getD (v * u.inputsOf.length + i) 0,
        u.inputsOf[i].2) := by
    simp only [attributesOf, List.getElem_zip, List.getElem_map]
    rw [List.getElem_eq_getD (h := hindex) (0, 0), hsize,
      ← List.getElem_eq_getD (h := hi) (0, 0), List.getElem_eq_getD 0]
  -- so do the dwords
  have hstart : offsetOf u.attributesOf (v * u.inputsOf.length + i) =
      v * (u.inputsOf.map Prod.snd).sum + offsetOf u.inputsOf i := by
    rw [offsetOf, List.map_take, attributesOf, List.map_snd_zip (by rwa [List.length_map]),
      ← List.map_take, hoffset, offsetOf]
  have hat := storeRegisters_at (fun _ => .replicate alu.zero) u.attributesOf_nodup hattributes
    attributes (Function.update file (u.inputsOf.getD 0 (0, 0)).1
      { file (u.inputsOf.getD 0 (0, 0)).1 with x := perThread 0, y := perThread 1 })
  rw [hregister] at hat
  unfold startLane
  rw [if_pos hfs]
  dsimp only at hat ⊢
  rw [hat, copyComponents_get, hstart, VectorRegister.replicate_get]

/-! ## Uniforms -/

/-- Uniforms one behind the other, which all threads get. -/
theorem foldl_writeLanes_eq (zero : V) (threadCount : Nat) (uniformDwords : Nat → V)
    (uniforms : List (RegisterIndex × Nat)) (s : (Nat → LaneFile V) × Nat) :
    (uniforms.foldl (fun s uniform =>
      (writeLanes threadCount uniform.1 (copyComponents uniform.2
        (fun k => uniformDwords (s.2 + k)) (.replicate zero)) s.1, s.2 + uniform.2)) s).1 =
      fun l => if l < threadCount then
        storeRegisters (fun _ => .replicate zero) uniforms (fun k => uniformDwords (s.2 + k)) (s.1 l)
      else s.1 l := by
  induction uniforms generalizing s with
  | nil =>
    funext l
    rw [storeRegisters, ite_self]
    rfl
  | cons uniform uniforms ih =>
    rw [List.foldl_cons, ih]
    funext l
    split
    · next hl => simp only [writeLanes_lane _ _ _ _ hl, storeRegisters, Nat.add_assoc]
    · next hl => exact writeLanes_other _ _ _ _ hl

theorem loadUniforms_eq {u : ShaderUnit V} (h : u.CountsFit) (alu : Alu V) (threadCount : Nat) :
    u.loadUniforms alu threadCount = .ok fun l => if l < threadCount then
        storeRegisters (fun _ => .replicate alu.zero) u.uniformsOf u.uniformDwords (u.gpr l)
      else u.gpr l := by
  have hfold := foldl_writeLanes_eq alu.zero threadCount u.uniformDwords u.uniformsOf (u.gpr, 0)
  simp only [Nat.zero_add] at hfold
  rw [← hfold]
  have hcount := h.uniforms
  unfold loadUniforms uniformsOf
  generalize u.isaMetadata.uniformsCount.toNat = count at hcount ⊢
  obtain rfl | rfl | rfl | rfl : count = 0 ∨ count = 1 ∨ count = 2 ∨ count = 3 := by omega
  all_goals rfl

end ShaderUnit

end

end PicoGpu
