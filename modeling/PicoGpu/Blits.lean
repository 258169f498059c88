import PicoGpu.EmptyWork
import PicoGpu.Lib.Slice
import PicoGpu.SoleWriter

/- Blits as copies between arrays. `copied` says what a command means: a slice of the
   memory, or of the user's own memory, is overwritten. The blitter goes through the dwords
   one by one and waits for an answer to each. `BlitterAt` follows it at any memory that
   answers like the atomic one, which `Memory` does on its own as well as behind a
   controller. -/
namespace PicoGpu
open Clocked Atomic Slice

/-! ## What the commands mean -/

/-- The memory of the GPU and that of the user. -/
structure Arrays (size : Nat) where
  memory : Fin size → MemoryDataType
  host : PointerType → Dword

namespace BlitterSignals

/-- The first dword of the range in memory. -/
def start (c : BlitterSignals) : Nat := c.memoryPtr.toNat / 4

variable {size : Nat}

def memoryPlace (c : BlitterSignals) (d : Fin size) : Option Nat :=
  if c.start ≤ d.val then some (d.val - c.start) else none

def hostPlace (c : BlitterSignals) (p : PointerType) : Option Nat :=
  let offset := (p - c.userPtr).toNat
  if offset % 4 = 0 then some (offset / 4) else none

/-- The first `count` dwords of the command. -/
def copied (c : BlitterSignals) (count : Nat) (a : Arrays size) : Arrays size :=
  match c.commandType with
  | .none => a
  | .copyToMem =>
    { a with memory :=
        overwrite c.memoryPlace count (fun k => a.host (Blitter.userAddress c.userPtr k)) a.memory }
  | .fillMem =>
    { a with memory := overwrite c.memoryPlace count (fun _ => a.host c.userPtr) a.memory }
  | .copyFromMem =>
    { a with host := overwrite c.hostPlace count (fun k => load a.memory (c.start + k)) a.host }

/-- The commands one after the other. -/
def copies (commands : List BlitterSignals) (a : Arrays size) : Arrays size :=
  commands.foldl (fun a c => c.copied c.sizeInDwords.toNat a) a

/-- A command with dwords, for an aligned range inside the memory. -/
structure Fits (size : Nat) (c : BlitterSignals) : Prop where
  nonempty : c.sizeInDwords ≠ 0
  aligned : c.memoryPtr.toNat % 4 = 0
  inside : c.start + c.sizeInDwords.toNat ≤ size
  signed : c.memoryPtr.toNat + 4 * c.sizeInDwords.toNat ≤ 2 ^ 31

/-- The locals that `Blitter::main` reads from the command. -/
def locals (c : BlitterSignals) : Blitter.Blit where
  isWrite := c.commandType = .copyToMem ∨ c.commandType = .fillMem
  isFill := c.commandType = .fillMem
  memoryPtr := c.memoryPtr
  userPtr := c.userPtr
  sizeInDwords := c.sizeInDwords.toNat

theorem copies_concat (commands : List BlitterSignals) (c : BlitterSignals) (a : Arrays size) :
    copies (commands ++ [c]) a = c.copied c.sizeInDwords.toNat (copies commands a) := by
  rw [copies, List.foldl_append, List.foldl_cons, List.foldl_nil]
  rfl

/-! ### Places -/

variable {c : BlitterSignals} {k : Nat} {a : Arrays size}

theorem Fits.address (h : c.Fits size) (hk : k < c.sizeInDwords.toNat) :
    addressIndex (dwordAddress c.memoryPtr k) = c.start + k ∧
      ValidAddress size (dwordAddress c.memoryPtr k) := by
  have haligned := h.aligned
  have hinside := h.inside
  have hsigned := h.signed
  unfold start at hinside ⊢
  have hnumber : (dwordAddress c.memoryPtr k).toNat = c.memoryPtr.toNat + 4 * k := by
    rw [dwordAddress, BitVec.toNat_add, BitVec.toNat_ofNat,
      Nat.mod_eq_of_lt (by omega : 4 * k < 2 ^ 32), Nat.mod_eq_of_lt (by omega)]
  have hmsb : (dwordAddress c.memoryPtr k).msb = false := by
    rw [BitVec.msb_eq_decide, hnumber]
    exact decide_eq_false (by omega)
  have hindex : addressIndex (dwordAddress c.memoryPtr k) = c.memoryPtr.toNat / 4 + k := by
    rw [addressIndex, BitVec.signExtend_eq_setWidth_of_msb_false hmsb, BitVec.toNat_setWidth,
      hnumber, Nat.mod_eq_of_lt (by omega)]
    omega
  refine ⟨hindex, ?_, ?_⟩
  · rw [hnumber]
    omega
  · rw [hindex]
    omega

theorem memoryPlace_iff {d : Fin size} : c.memoryPlace d = some k ↔ d.val = c.start + k := by
  unfold memoryPlace
  split
  · rw [Option.some.injEq]
    omega
  · next hlt =>
    constructor
    · intro h
      cases h
    · intro h
      omega

theorem hostPlace_iff (hk : k < 2 ^ 16) (p : PointerType) :
    c.hostPlace p = some k ↔ p = Blitter.userAddress c.userPtr k := by
  have hoffset : (BitVec.ofNat 64 (4 * k)).toNat = 4 * k := by
    rw [BitVec.toNat_ofNat, Nat.mod_eq_of_lt (by omega)]
  unfold hostPlace Blitter.userAddress
  constructor
  · intro h
    dsimp only at h
    split at h
    · next hdword =>
      have hdiv := Option.some.inj h
      have hsub : p - c.userPtr = BitVec.ofNat 64 (4 * k) := by
        apply BitVec.eq_of_toNat_eq
        rw [hoffset]
        omega
      rw [← hsub, BitVec.add_comm, BitVec.sub_add_cancel]
    · cases h
  · rintro rfl
    rw [BitVec.add_comm, BitVec.add_sub_cancel]
    dsimp only
    rw [hoffset, if_pos (by omega), Nat.mul_div_cancel_left k (by decide)]

theorem userAddress_zero (userPtr : PointerType) : Blitter.userAddress userPtr 0 = userPtr := by
  rw [Blitter.userAddress]
  exact BitVec.add_zero userPtr

/-! ### One more dword -/

theorem copied_zero : c.copied 0 a = a := by
  unfold copied
  cases c.commandType with
  | none => rfl
  | copyToMem | copyFromMem | fillMem =>
    dsimp only
    rw [overwrite_zero]

theorem isWrite_iff : c.locals.isWrite = true ↔
    c.commandType = .copyToMem ∨ c.commandType = .fillMem :=
  decide_eq_true_iff

theorem isFill_iff : c.locals.isFill = true ↔ c.commandType = .fillMem := decide_eq_true_iff

theorem copied_write_host (hwrite : c.locals.isWrite = true) : (c.copied k a).host = a.host := by
  rcases isWrite_iff.mp hwrite with htype | htype
  · rw [copied, htype]
  · rw [copied, htype]

theorem copied_read_memory (hread : ¬ c.locals.isWrite = true) :
    (c.copied k a).memory = a.memory := by
  rw [isWrite_iff] at hread
  unfold copied
  cases htype : c.commandType with
  | none => rfl
  | copyToMem => exact absurd (.inl htype) hread
  | fillMem => exact absurd (.inr htype) hread
  | copyFromMem => rfl

theorem copied_write_succ (h : c.Fits size) (hk : k < c.sizeInDwords.toNat)
    (hwrite : c.locals.isWrite = true) :
    (c.copied (k + 1) a).memory =
      store (c.copied k a).memory (addressIndex (dwordAddress c.memoryPtr k))
        (a.host (Blitter.userAddress c.userPtr (if c.locals.isFill then 0 else k))) := by
  have hinside := h.inside
  have hlt : c.start + k < size := by omega
  have hplace : ∀ d : Fin size, c.memoryPlace d = some k ↔ d = ⟨c.start + k, hlt⟩ := by
    intro d
    rw [memoryPlace_iff, Fin.ext_iff]
  rw [(h.address hk).1, store, dif_pos hlt]
  rcases isWrite_iff.mp hwrite with htype | htype
  · have hfill : c.locals.isFill = false := by
      rw [← Bool.not_eq_true, isFill_iff, htype]
      decide
    simp only [copied, htype, hfill, Bool.false_eq_true, if_false]
    exact overwrite_succ hplace
  · have hfill : c.locals.isFill = true := isFill_iff.mpr htype
    simp only [copied, htype, hfill, if_true, userAddress_zero]
    exact overwrite_succ hplace

theorem copied_read_succ (h : c.Fits size) (hk : k < c.sizeInDwords.toNat)
    (hcommand : c.commandType ≠ .none) (hread : ¬ c.locals.isWrite = true) :
    (c.copied (k + 1) a).host = Function.update (c.copied k a).host
      (Blitter.userAddress c.userPtr k)
      (load a.memory (addressIndex (dwordAddress c.memoryPtr k))) := by
  have hsmall := c.sizeInDwords.isLt
  rw [(h.address hk).1]
  rw [isWrite_iff] at hread
  have htype : c.commandType = .copyFromMem := by
    cases htype : c.commandType with
    | none => exact absurd htype hcommand
    | copyToMem => exact absurd (.inl htype) hread
    | fillMem => exact absurd (.inr htype) hread
    | copyFromMem => rfl
  simp only [copied, htype]
  exact overwrite_succ (hostPlace_iff (by omega))

theorem Fits.pos (h : c.Fits size) : 0 < c.sizeInDwords.toNat := by
  rw [Nat.pos_iff_ne_zero]
  intro hzero
  exact h.nonempty (BitVec.eq_of_toNat_eq hzero)

end BlitterSignals

/-! ## What follows for the arrays -/

namespace BlitterSignals

variable {size : Nat}

/-- What sequences of copies mean for single dwords. -/
structure CopyLaws (size : Nat) : Prop where
  outside : ∀ (commands : List BlitterSignals) (a : Arrays size) (d : Fin size),
    (∀ c ∈ commands, c.locals.isWrite = true →
      Outside c.memoryPlace c.sizeInDwords.toNat d) →
    (copies commands a).memory d = a.memory d
  outsideHost : ∀ (commands : List BlitterSignals) (a : Arrays size) (p : PointerType),
    (∀ c ∈ commands, c.commandType = .copyFromMem →
      Outside c.hostPlace c.sizeInDwords.toNat p) →
    (copies commands a).host p = a.host p
  laterWins : ∀ (before after : List BlitterSignals) (w : BlitterSignals) (a : Arrays size)
    (d : Fin size) (k : Nat), w.locals.isWrite = true → w.memoryPlace d = some k →
    k < w.sizeInDwords.toNat →
    (∀ c ∈ after, c.locals.isWrite = true → Outside c.memoryPlace c.sizeInDwords.toNat d) →
    (copies (before ++ w :: after) a).memory d = (copies before a).host
      (Blitter.userAddress w.userPtr (if w.locals.isFill then 0 else k))
  readBack : ∀ (before between : List BlitterSignals) (w r : BlitterSignals) (a : Arrays size),
    w.commandType = .copyToMem → r.commandType = .copyFromMem → w.Fits size →
    r.memoryPtr = w.memoryPtr → r.sizeInDwords = w.sizeInDwords →
    (∀ c ∈ between, c.locals.isWrite = true → ∀ (d : Fin size) (k : Nat),
      w.memoryPlace d = some k → k < w.sizeInDwords.toNat →
      Outside c.memoryPlace c.sizeInDwords.toNat d) →
    ∀ k < w.sizeInDwords.toNat,
      (copies (before ++ w :: between ++ [r]) a).host (Blitter.userAddress r.userPtr k) =
        (copies before a).host (Blitter.userAddress w.userPtr k)

variable {commands before after between : List BlitterSignals} {a : Arrays size}
  {c w r : BlitterSignals} {count k : Nat} {d : Fin size} {p : PointerType}

theorem copied_outside (h : c.locals.isWrite = true → Outside c.memoryPlace count d) :
    (c.copied count a).memory d = a.memory d := by
  by_cases hwrite : c.locals.isWrite = true
  · rcases isWrite_iff.mp hwrite with htype | htype
    · rw [copied, htype]
      exact overwrite_outside (h hwrite)
    · rw [copied, htype]
      exact overwrite_outside (h hwrite)
  · rw [copied_read_memory hwrite]

theorem copied_outsideHost (h : c.commandType = .copyFromMem → Outside c.hostPlace count p) :
    (c.copied count a).host p = a.host p := by
  unfold copied
  cases htype : c.commandType with
  | none | copyToMem | fillMem => rfl
  | copyFromMem => exact overwrite_outside (h htype)

theorem copies_outside (h : ∀ c ∈ commands, c.locals.isWrite = true →
    Outside c.memoryPlace c.sizeInDwords.toNat d) :
    (copies commands a).memory d = a.memory d := by
  induction commands generalizing a with
  | nil => rfl
  | cons c commands ih =>
    have hrest := ih (a := c.copied c.sizeInDwords.toNat a)
      fun c' hc' => h c' (List.mem_cons_of_mem _ hc')
    exact hrest.trans (copied_outside (h c List.mem_cons_self))

theorem copies_outsideHost (h : ∀ c ∈ commands, c.commandType = .copyFromMem →
    Outside c.hostPlace c.sizeInDwords.toNat p) :
    (copies commands a).host p = a.host p := by
  induction commands generalizing a with
  | nil => rfl
  | cons c commands ih =>
    have hrest := ih (a := c.copied c.sizeInDwords.toNat a)
      fun c' hc' => h c' (List.mem_cons_of_mem _ hc')
    exact hrest.trans (copied_outsideHost (h c List.mem_cons_self))

/-- A dword inside the range of a write. -/
theorem copied_inside (hwrite : w.locals.isWrite = true) (hplace : w.memoryPlace d = some k)
    (hk : k < count) : (w.copied count a).memory d =
      a.host (Blitter.userAddress w.userPtr (if w.locals.isFill then 0 else k)) := by
  rcases isWrite_iff.mp hwrite with htype | htype
  · have hfill : w.locals.isFill = false := by
      rw [← Bool.not_eq_true, isFill_iff, htype]
      decide
    simp only [copied, htype, hfill, Bool.false_eq_true, if_false]
    exact overwrite_at hplace hk
  · have hfill : w.locals.isFill = true := isFill_iff.mpr htype
    simp only [copied, htype, hfill, if_true, userAddress_zero]
    exact overwrite_at hplace hk

theorem copies_append (commands commands' : List BlitterSignals) (a : Arrays size) :
    copies (commands ++ commands') a = copies commands' (copies commands a) :=
  List.foldl_append

theorem later_wins (hwrite : w.locals.isWrite = true) (hplace : w.memoryPlace d = some k)
    (hk : k < w.sizeInDwords.toNat)
    (hafter : ∀ c ∈ after, c.locals.isWrite = true →
      Outside c.memoryPlace c.sizeInDwords.toNat d) :
    (copies (before ++ w :: after) a).memory d = (copies before a).host
      (Blitter.userAddress w.userPtr (if w.locals.isFill then 0 else k)) := by
  rw [copies_append]
  show (copies after (w.copied _ (copies before a))).memory d = _
  rw [copies_outside hafter, copied_inside hwrite hplace hk]

theorem read_back (hw : w.commandType = .copyToMem) (hr : r.commandType = .copyFromMem)
    (hfits : w.Fits size) (hptr : r.memoryPtr = w.memoryPtr)
    (hsize : r.sizeInDwords = w.sizeInDwords)
    (hbetween : ∀ c ∈ between, c.locals.isWrite = true → ∀ (d : Fin size) (k : Nat),
      w.memoryPlace d = some k → k < w.sizeInDwords.toNat →
      Outside c.memoryPlace c.sizeInDwords.toNat d)
    (hk : k < w.sizeInDwords.toNat) :
    (copies (before ++ w :: between ++ [r]) a).host (Blitter.userAddress r.userPtr k) =
      (copies before a).host (Blitter.userAddress w.userPtr k) := by
  have hsmall := w.sizeInDwords.isLt
  have hinside := hfits.inside
  have hlt : w.start + k < size := by omega
  have hplace : w.memoryPlace (⟨w.start + k, hlt⟩ : Fin size) = some k := memoryPlace_iff.mpr rfl
  have hwrite : w.locals.isWrite = true := isWrite_iff.mpr (.inl hw)
  have hfill : ¬ w.locals.isFill = true := by
    rw [isFill_iff, hw]
    decide
  have hstored := @later_wins size before between a w k _ hwrite hplace hk
    fun c hc hcwrite => hbetween c hc hcwrite _ k hplace hk
  have hhost : r.hostPlace (Blitter.userAddress r.userPtr k) = some k :=
    (hostPlace_iff (by omega) _).mpr rfl
  rw [if_neg hfill] at hstored
  rw [copies_concat, copied, hr]
  show overwrite r.hostPlace _ _ _ _ = _
  rw [overwrite_at hhost (by rw [hsize]; exact hk), start, hptr, ← start, load, dif_pos hlt]
  exact hstored

theorem copyLaws (size : Nat) : CopyLaws size where
  outside := fun _ _ _ h => copies_outside h
  outsideHost := fun _ _ _ h => copies_outsideHost h
  laterWins := fun _ _ _ _ _ _ hwrite hplace hk hafter => later_wins hwrite hplace hk hafter
  readBack := fun _ _ _ _ _ hw hr hfits hptr hsize hbetween _ hk =>
    read_back hw hr hfits hptr hsize hbetween hk

/-- A dword without an address is in no range. -/
theorem copies_unaddressed (hfits : ∀ c ∈ commands, c.Fits size)
    (hd : ∀ address, ValidAddress size address → addressIndex address ≠ d) :
    (copies commands a).memory d = a.memory d := by
  apply copies_outside
  intro c hc _ k hk hplace
  have haddress := (hfits c hc).address hk
  apply hd _ haddress.2
  rw [haddress.1]
  exact (memoryPlace_iff.mp hplace).symm

end BlitterSignals

/-! ## The blitter at a memory -/

namespace Blitter
open BlitterSignals

variable {size : Nat}

/-- The block has taken the command that it shows its locals of, and asks for a dword of it. -/
def Aims (size : Nat) (b : Blitter) : Prop :=
  match b.pc with
  | .start => b.memory.enable = false
  | .accessing blit dwordIndex => (∃ c : BlitterSignals, c.Fits size ∧ c.locals = blit) ∧
      dwordIndex < blit.sizeInDwords ∧ b.memory.address = dwordAddress blit.memoryPtr dwordIndex
  | .aborted _ => False

/-- What the block has done for the commands it has taken, with `issued` its operations. -/
def BlitterAt (initial : MemoryAddressType → MemoryDataType) (a : Arrays size)
    (taken : List BlitterSignals) (issued : List MemoryOperation) (b : Blitter) : Prop :=
  let memory := stateAfter atomicMemory initial issued
  match b.pc with
  | .start => Holds (copies taken a).memory memory ∧ b.userMemory = (copies taken a).host
  | .accessing blit dwordIndex => ∃ earlier c, taken = earlier ++ [c] ∧ c.Fits size ∧
      c.commandType ≠ .none ∧ c.locals = blit ∧ dwordIndex < c.sizeInDwords.toNat ∧
      b.userMemory = (c.copied dwordIndex (copies earlier a)).host ∧
      if blit.isWrite then
        Holds (c.copied (dwordIndex + 1) (copies earlier a)).memory memory
      else Holds (c.copied dwordIndex (copies earlier a)).memory memory ∧
        ∃ before, issued = before ++ [.read (dwordAddress c.memoryPtr dwordIndex)]
  | .aborted _ => False

variable {initial : MemoryAddressType → MemoryDataType} {a : Arrays size}
  {earlier taken : List BlitterSignals} {issued : List MemoryOperation} {b : Blitter}
  {c : BlitterSignals} {k : Nat} {outBusy : Bool}

theorem copy_aims (hfits : c.Fits size) (hlow : b.memory.enable = false)
    (hwork : k < c.sizeInDwords.toNat ∨ outBusy = true) :
    (b.copy outBusy c.locals k).Aims size := by
  unfold copy
  split
  · next hlt => exact ⟨⟨c, hfits, rfl⟩, hlt, rfl⟩
  · next hge =>
    have hraised : outBusy = true := hwork.resolve_left hge
    subst hraised
    exact hlow

/-- The loop goes on with dword `k`, or is over. -/
theorem copy_at (hfits : c.Fits size) (hcommand : c.commandType ≠ .none)
    (hk : k ≤ c.sizeInDwords.toNat) (hlow : b.memory.enable = false)
    (hwork : k < c.sizeInDwords.toNat ∨ outBusy = true)
    (hhost : b.userMemory = (c.copied k (copies earlier a)).host)
    (hmemory : Holds (c.copied k (copies earlier a)).memory
      (stateAfter atomicMemory initial issued)) :
    BlitterAt initial a (earlier ++ [c]) (issued ++ (b.copy outBusy c.locals k).memory.issues)
      (b.copy outBusy c.locals k) := by
  unfold copy
  split
  · next hlt =>
    have hlt : k < c.sizeInDwords.toNat := hlt
    refine ⟨earlier, c, rfl, hfits, hcommand, rfl, hlt, hhost, ?_⟩
    by_cases hwrite : c.locals.isWrite = true
    · rw [if_pos hwrite, copied_write_succ hfits hlt hwrite, ← copied_write_host hwrite, ← hhost]
      simp only [MemorySignals.issues, MemorySignals.operation, hwrite, if_true]
      rw [stateAfter_concat]
      exact hmemory.store (hfits.address hlt).2 _
    · rw [if_neg hwrite]
      simp only [MemorySignals.issues, MemorySignals.operation, hwrite, if_true,
        Bool.false_eq_true, if_false]
      rw [stateAfter_concat]
      exact ⟨hmemory, issued, rfl⟩
  · next hge =>
    have hraised : outBusy = true := hwork.resolve_left hge
    have hall : k = c.sizeInDwords.toNat := by
      have hge : ¬ k < c.sizeInDwords.toNat := hge
      omega
    subst hraised hall
    dsimp only [RaiiBooleanSetter.destruct]
    rw [if_pos rfl]
    dsimp only
    rw [issues_low hlow, List.append_nil]
    show Holds (copies (earlier ++ [c]) a).memory _ ∧ b.userMemory = (copies (earlier ++ [c]) a).host
    rw [copies_concat]
    exact ⟨hmemory, hhost⟩

/-- What the block takes when its ports show a command. -/
def takes (command : BlitterSignals) (b : Blitter) : List BlitterSignals :=
  if b.outBusy = false ∧ command.commandType ≠ .none then [command] else []

theorem takes_busy (command : BlitterSignals) (hbusy : b.outBusy = true) :
    b.takes command = [] := by
  rw [takes, hbusy, if_neg (by simp)]

section
variable {env : Surroundings}

theorem aims_step (haims : b.Aims size) (hsound : b.Sound)
    (hfits : ∀ c ∈ b.takes env.command, c.Fits size) : (clock env b).Aims size := by
  have hkeep := haims
  unfold Aims at haims
  unfold Sound at hsound
  unfold clock step
  cases hpc : b.pc with
  | start =>
    rw [hpc] at haims hsound
    dsimp only
    split
    · exact hkeep
    · next hcommand =>
      have hnew : env.command.Fits size := by
        apply hfits
        rw [takes, if_pos ⟨hsound, hcommand⟩]
        exact List.mem_singleton_self _
      rw [hsound]
      exact @copy_aims size { b with outBusy := true } env.command 0 false hnew haims (.inl hnew.pos)
  | accessing blit dwordIndex =>
    rw [hpc] at haims hsound
    obtain ⟨⟨c, hc, rfl⟩, hlt, haddress⟩ := haims
    dsimp only
    split
    · split
      · exact @copy_aims size { b with memory := .low } c (dwordIndex + 1) b.outBusy hc rfl
          (.inr hsound.1)
      · exact @copy_aims size { b with
          memory := .low
          userMemory := Function.update b.userMemory (userAddress c.userPtr dwordIndex)
            env.inpData } c (dwordIndex + 1) b.outBusy hc rfl (.inr hsound.1)
    · exact ⟨⟨c, hc, rfl⟩, hlt, haddress⟩
  | aborted e =>
    rw [hpc] at haims
    exact haims.elim

/-- One clock at a memory that answers the last operation. -/
theorem blitterAt_step (h : BlitterAt initial a taken issued b) (htracked : b.Tracked)
    (hfits : ∀ c ∈ b.takes env.command, c.Fits size)
    (hanswer : b.awaiting = true → env.inpCompleted = true → ∀ before o,
      issued = before ++ [o] →
      env.inpData = (atomicMemory (stateAfter atomicMemory initial before) o).2) :
    BlitterAt initial a (taken ++ b.takes env.command)
      (issued ++ (clock env b).memory.issues) (clock env b) := by
  have hkeep := h
  unfold BlitterAt at h
  unfold Tracked at htracked
  unfold clock step
  cases hpc : b.pc with
  | start =>
    rw [hpc] at h htracked
    obtain ⟨hbusy, hlow⟩ := htracked
    dsimp only
    split
    · next hnone =>
      rw [takes, if_neg (by rw [hnone]; simp), issues_low hlow, List.append_nil, List.append_nil]
      exact hkeep
    · next hcommand =>
      have htakes : b.takes env.command = [env.command] := by
        rw [takes, if_pos ⟨hbusy, hcommand⟩]
      have hnew : env.command.Fits size := by
        apply hfits
        rw [htakes]
        exact List.mem_singleton_self _
      rw [htakes, hbusy]
      refine @copy_at size initial a taken issued { b with outBusy := true } env.command 0 false
        hnew hcommand (Nat.zero_le _) hlow (.inl hnew.pos) ?_ ?_
      · rw [copied_zero]
        exact h.2
      · rw [copied_zero]
        exact h.1
  | accessing blit dwordIndex =>
    rw [hpc] at h htracked
    obtain ⟨earlier, c, rfl, hc, hcommand, rfl, hlt, hhost, hmemory⟩ := h
    rw [takes_busy _ htracked, List.append_nil]
    have hwaits : b.awaiting = true := by rw [awaiting, hpc]
    dsimp only
    split
    · next hcompleted =>
      by_cases hwrite : c.locals.isWrite = true
      · rw [if_pos hwrite] at hmemory ⊢
        refine @copy_at size initial a earlier issued { b with memory := .low } c (dwordIndex + 1)
          b.outBusy hc hcommand hlt rfl (.inr htracked) ?_ hmemory
        rw [copied_write_host hwrite] at hhost ⊢
        exact hhost
      · rw [if_neg hwrite] at hmemory ⊢
        obtain ⟨hmemory, before, hlast⟩ := hmemory
        have hdata := hanswer hwaits hcompleted before _ hlast
        have hstate : stateAfter atomicMemory initial issued =
            stateAfter atomicMemory initial before := by
          rw [hlast, stateAfter_concat]
          rfl
        refine @copy_at size initial a earlier issued { b with
          memory := .low
          userMemory := Function.update b.userMemory (userAddress c.userPtr dwordIndex)
            env.inpData } c (dwordIndex + 1) b.outBusy hc hcommand hlt rfl (.inr htracked) ?_ ?_
        · rw [copied_read_succ hc hlt hcommand hwrite, ← hhost,
            ← @copied_read_memory size c dwordIndex _ hwrite, hmemory _ (hc.address hlt).2, hstate]
          show Function.update b.userMemory _ env.inpData = _
          rw [hdata]
          rfl
        · rw [copied_read_memory hwrite] at hmemory ⊢
          exact hmemory
    · next hpending =>
      rw [issues_low rfl, List.append_nil]
      exact ⟨earlier, c, rfl, hc, hcommand, rfl, hlt, hhost, hmemory⟩
  | aborted e =>
    rw [hpc] at h
    exact h.elim

end

end Blitter

/-! ## Runs -/

open BlitterSignals

/-- The commands that the block shows itself ready for when they come, before clock `n`. -/
def takenBefore (commands : Nat → BlitterSignals) (blitter : Nat → Blitter) (n : Nat) :
    List BlitterSignals :=
  (List.range n).flatMap fun clock => (blitter clock).takes (commands clock)

theorem takenBefore_succ (commands : Nat → BlitterSignals) (blitter : Nat → Blitter) (n : Nat) :
    takenBefore commands blitter (n + 1) =
      takenBefore commands blitter n ++ (blitter n).takes (commands n) := by
  rw [takenBefore, List.range_succ, List.flatMap_append, List.flatMap_singleton]
  rfl

/-- The commands that the block takes have dwords, and their ranges lie in the memory. -/
def TakesFitting (size : Nat) (commands : Nat → BlitterSignals) (blitter : Nat → Blitter) : Prop :=
  ∀ n, ∀ c ∈ (blitter n).takes (commands n), c.Fits size

/-- Whenever the block is not busy, the arrays are what the commands make of them one after
    the other; and it does not stay busy. When no command comes any more, the arrays stay
    what all of them make of the arrays. -/
structure CopiesArrays {size : Nat} (commands : Nat → BlitterSignals) (initial : Arrays size)
    (blitter : Nat → Blitter) (rawMemory : Nat → Fin size → MemoryDataType) : Prop where
  sequential : ∀ n, (blitter n).outBusy = false →
    ⟨rawMemory n, (blitter n).userMemory⟩ = copies (takenBefore commands blitter n) initial
  returns : ∀ n, ∃ m ≥ n, (blitter m).outBusy = false
  final : ∀ issued n, (∀ m ≥ n, takenBefore commands blitter m = issued) →
    ∃ N, ∀ m ≥ N, ⟨rawMemory m, (blitter m).userMemory⟩ = copies issued initial

section
variable {size : Nat} {commands : Nat → BlitterSignals} {rawMemory : Fin size → MemoryDataType}
  {userMemory : PointerType → Dword}

/-- What is known about the block, whatever the memory answers. -/
structure BlitterInv (size : Nat) (b : Blitter) : Prop where
  sound : b.Sound
  tracked : b.Tracked
  aims : b.Aims size

theorem blitterInv_new (userMemory : PointerType → Dword) :
    BlitterInv size (Blitter.new userMemory) :=
  ⟨rfl, ⟨rfl, rfl⟩, rfl⟩

theorem blitterInv_step {b : Blitter} (h : BlitterInv size b) (env : Blitter.Surroundings)
    (hfits : ∀ c ∈ b.takes env.command, c.Fits size) : BlitterInv size (Blitter.clock env b) := by
  refine ⟨?_, (Blitter.step_spec h.tracked _ _ _).1, Blitter.aims_step h.aims h.sound hfits⟩
  apply Blitter.sound_step h.sound
  intro hpc hcommand
  have hbusy := h.sound
  rw [Blitter.Sound, hpc] at hbusy
  apply (hfits env.command ?_).nonempty
  rw [Blitter.takes, if_pos ⟨hbusy, hcommand⟩]
  exact List.mem_singleton_self _

/-- What the block asks for is in the memory. -/
theorem BlitterInv.valid {b : Blitter} (h : BlitterInv size b) :
    ∀ o ∈ b.memory.issues, ValidAddress size o.address := by
  have haims := h.aims
  unfold Blitter.Aims at haims
  intro o ho
  cases hpc : b.pc with
  | start =>
    rw [hpc] at haims
    rw [issues_low haims] at ho
    cases ho
  | accessing blit dwordIndex =>
    rw [hpc] at haims
    obtain ⟨⟨c, hc, rfl⟩, hlt, haddress⟩ := haims
    have hoperation : o.address = b.memory.address := by
      unfold MemorySignals.issues at ho
      split at ho
      · rw [List.mem_singleton.mp ho, MemorySignals.operation]
        split
        · rfl
        · rfl
      · cases ho
    rw [hoperation, haddress]
    exact (hc.address hlt).2
  | aborted e =>
    rw [hpc] at haims
    exact haims.elim

theorem BlitterInv.free {b : Blitter} (h : BlitterInv size b) (hbusy : b.outBusy = false) :
    b.pc = .start ∧ b.awaiting = false := by
  have hsound := h.sound
  unfold Blitter.Sound at hsound
  cases hpc : b.pc with
  | start => exact ⟨rfl, by rw [Blitter.awaiting, hpc]⟩
  | accessing blit dwordIndex =>
    rw [hpc, hbusy] at hsound
    cases hsound.1
  | aborted e =>
    rw [hpc] at hsound
    exact hsound.elim

/-- Arrays that hold the same, where it can be addressed and elsewhere. -/
theorem memory_of_holds {xs ys : Fin size → MemoryDataType}
    {m : MemoryAddressType → MemoryDataType} (hx : Holds xs m) (hy : Holds ys m)
    (hunaddressed : ∀ i : Fin size,
      (∀ address, ValidAddress size address → addressIndex address ≠ i) → xs i = ys i) :
    xs = ys := by
  funext i
  by_cases haddressed : ∃ address, ValidAddress size address ∧ addressIndex address = i
  · obtain ⟨address, hvalid, hindex⟩ := haddressed
    have hsame := (hx address hvalid).trans (hy address hvalid).symm
    rw [hindex, load, load, dif_pos i.isLt, dif_pos i.isLt] at hsame
    exact hsame
  · exact hunaddressed i fun address hvalid hindex => haddressed ⟨address, hvalid, hindex⟩

/-- The block and the memory between two clocks, with the operations the block has issued. -/
structure BlitsAt (rawMemory : Fin size → MemoryDataType) (userMemory : PointerType → Dword)
    (taken : List BlitterSignals) (issued : List MemoryOperation) (b : Blitter)
    (memory : Fin size → MemoryDataType) : Prop where
  inv : BlitterInv size b
  done : b.BlitterAt (initialMemory rawMemory) ⟨rawMemory, userMemory⟩ taken issued
  fits : ∀ c ∈ taken, c.Fits size
  free : b.awaiting = false →
    Holds memory (stateAfter atomicMemory (initialMemory rawMemory) issued)
  unaddressed : ∀ i : Fin size, (∀ address, ValidAddress size address → addressIndex address ≠ i) →
    memory i = rawMemory i

/-- A block that is not busy has finished its commands. -/
theorem BlitsAt.copied {taken : List BlitterSignals} {issued : List MemoryOperation} {b : Blitter}
    {memory : Fin size → MemoryDataType}
    (h : BlitsAt rawMemory userMemory taken issued b memory) (hbusy : b.outBusy = false) :
    ⟨memory, b.userMemory⟩ = copies taken ⟨rawMemory, userMemory⟩ := by
  obtain ⟨hpc, hfree⟩ := h.inv.free hbusy
  have hat := h.done
  unfold Blitter.BlitterAt at hat
  rw [hpc] at hat
  have hmemory : memory = (copies taken ⟨rawMemory, userMemory⟩).memory := by
    apply memory_of_holds (h.free hfree) hat.1
    intro i hi
    rw [h.unaddressed i hi, copies_unaddressed h.fits hi]
  rw [hmemory, hat.2]

/-- Without a command the block does not become busy. -/
theorem BlitterInv.rests {b : Blitter} (h : BlitterInv size b) {env : Blitter.Surroundings}
    (hbusy : b.outBusy = false) (hnone : b.takes env.command = []) :
    (Blitter.clock env b).outBusy = false := by
  have hcommand : env.command.commandType = .none := by
    by_contra hne
    rw [Blitter.takes, if_pos ⟨hbusy, hne⟩] at hnone
    cases hnone
  unfold Blitter.clock Blitter.step
  rw [(h.free hbusy).1]
  dsimp only
  rw [if_pos hcommand]
  exact hbusy

/-- The blitter of a run, as far as it shows itself ready for commands. -/
theorem blitterInv_after {surroundings : Nat → Blitter.Surroundings}
    (hfits : TakesFitting size (fun n => (surroundings n).command)
      (Blitter.after surroundings userMemory)) (n : Nat) :
    BlitterInv size (Blitter.after surroundings userMemory n) := by
  induction n with
  | zero => exact blitterInv_new userMemory
  | succ n ih => exact blitterInv_step ih (surroundings n) (hfits n)

/-- A run at a memory that answers, in which a block that is not busy has copied. -/
theorem copiesArrays {surroundings : Nat → Blitter.Surroundings}
    {memory : Nat → Fin size → MemoryDataType}
    (hfits : TakesFitting size (fun n => (surroundings n).command)
      (Blitter.after surroundings userMemory))
    (hanswered : Blitter.Answered surroundings userMemory)
    (hcopied : ∀ n, (Blitter.after surroundings userMemory n).outBusy = false →
      ⟨memory n, (Blitter.after surroundings userMemory n).userMemory⟩ =
        copies (takenBefore (fun n => (surroundings n).command)
          (Blitter.after surroundings userMemory) n) ⟨rawMemory, userMemory⟩) :
    CopiesArrays (fun n => (surroundings n).command) ⟨rawMemory, userMemory⟩
      (Blitter.after surroundings userMemory) memory := by
  have hwork : Blitter.TakesWork surroundings userMemory := by
    intro n hpc hcommand
    have hsound := (blitterInv_after hfits n).sound
    rw [Blitter.Sound, hpc] at hsound
    apply (hfits n (surroundings n).command ?_).nonempty
    rw [Blitter.takes, if_pos ⟨hsound, hcommand⟩]
    exact List.mem_singleton_self _
  have hreturns : ∀ n, ∃ m ≥ n, (Blitter.after surroundings userMemory m).outBusy = false := by
    intro n
    obtain ⟨m, hm, -, hbusy⟩ := (Blitter.harmless_of_work hanswered hwork).returns n
    exact ⟨m, hm, hbusy⟩
  refine ⟨hcopied, hreturns, ?_⟩
  intro issued n hissued
  obtain ⟨N, hN, hidle⟩ := hreturns n
  -- without a command the block stays as it is
  have hstays : ∀ d, (Blitter.after surroundings userMemory (N + d)).outBusy = false := by
    intro d
    induction d with
    | zero => exact hidle
    | succ d ih =>
      apply (blitterInv_after hfits (N + d)).rests ih
      have hnow := hissued (N + d + 1) (by omega)
      rw [takenBefore_succ, hissued (N + d) (by omega)] at hnow
      exact List.append_right_eq_self.mp hnow
  refine ⟨N, fun m hm => ?_⟩
  obtain ⟨d, rfl⟩ := Nat.exists_eq_add_of_le hm
  rw [hcopied _ (hstays d), hissued _ (by omega)]

end

/-! ## Sequences of commands -/

/-- A blitter with its memory: however the commands come, the arrays are copied, and every
    sequence of commands can come, one after another. -/
structure CopiesSequences {size : Nat} (a : Arrays size)
    (blitter : (Nat → BlitterSignals) → Nat → Blitter)
    (rawMemory : (Nat → BlitterSignals) → Nat → Fin size → MemoryDataType) : Prop where
  copies : ∀ commands, TakesFitting size commands (blitter commands) →
    CopiesArrays commands a (blitter commands) (rawMemory commands)
  issues : ∀ issued : List BlitterSignals, (∀ c ∈ issued, c.commandType ≠ .none ∧ c.Fits size) →
    ∃ commands n, TakesFitting size commands (blitter commands) ∧
      ∀ m ≥ n, takenBefore commands (blitter commands) m = issued

section
variable {size : Nat} {blitter : (Nat → BlitterSignals) → Nat → Blitter}

theorem takenBefore_agree {commands commands' : Nat → BlitterSignals} {n : Nat}
    (hblitter : ∀ m < n, blitter commands m = blitter commands' m)
    (hcommands : ∀ m < n, commands m = commands' m) :
    takenBefore commands (blitter commands) n = takenBefore commands' (blitter commands') n := by
  unfold takenBefore
  apply List.flatMap_congr
  intro m hm
  have hlt := List.mem_range.mp hm
  rw [hblitter m hlt, hcommands m hlt]

theorem takes_low (b : Blitter) : b.takes .low = [] := by
  rw [Blitter.takes, if_neg]
  intro h
  exact h.2 rfl

theorem takenBefore_low {commands : Nat → BlitterSignals} {blitter : Nat → Blitter} {n : Nat}
    (hlow : ∀ m ≥ n, commands m = .low) {m : Nat} (hm : n ≤ m) :
    takenBefore commands blitter m = takenBefore commands blitter n := by
  induction m, hm using Nat.le_induction with
  | base => rfl
  | succ m hm ih => rw [takenBefore_succ, hlow m hm, takes_low, List.append_nil, ih]

/-- The next command comes once the block is idle again. -/
theorem issues_all
    (hagree : ∀ commands commands' n, (∀ m < n, commands m = commands' m) →
      blitter commands n = blitter commands' n)
    (hreturns : ∀ commands, TakesFitting size commands (blitter commands) →
      ∀ n, ∃ m ≥ n, (blitter commands m).outBusy = false)
    {issued : List BlitterSignals}
    (hissued : ∀ c ∈ issued, c.commandType ≠ .none ∧ c.Fits size) :
    ∃ commands n, TakesFitting size commands (blitter commands) ∧
      (∀ m ≥ n, commands m = .low) ∧ takenBefore commands (blitter commands) n = issued := by
  induction issued using List.reverseRecOn with
  | nil =>
    refine ⟨fun _ => .low, 0, ?_, fun _ _ => rfl, rfl⟩
    intro n c hc
    rw [takes_low] at hc
    cases hc
  | append_singleton issued c ih =>
    obtain ⟨commands, n, hfits, hlow, htaken⟩ :=
      ih fun c' hc' => hissued c' (List.mem_append_left _ hc')
    obtain ⟨hcommand, hc⟩ := hissued c (List.mem_append_right _ (List.mem_singleton_self c))
    obtain ⟨N, hN, hidle⟩ := hreturns commands hfits n
    have hbefore : ∀ m < N, Function.update commands N c m = commands m := fun m hm =>
      Function.update_of_ne (Nat.ne_of_lt hm) c commands
    have hafter : ∀ m ≥ N + 1, Function.update commands N c m = .low := fun m hm => by
      rw [Function.update_of_ne (by omega)]
      exact hlow m (by omega)
    have hsame : ∀ m ≤ N, blitter (Function.update commands N c) m = blitter commands m :=
      fun m hm => hagree _ _ m fun k hk => hbefore k (by omega)
    have htakes : (blitter (Function.update commands N c) N).takes
        (Function.update commands N c N) = [c] := by
      rw [hsame N (Nat.le_refl N), Function.update_self, Blitter.takes, if_pos ⟨hidle, hcommand⟩]
    refine ⟨Function.update commands N c, N + 1, ?_, hafter, ?_⟩
    · intro m c' hc'
      rcases Nat.lt_trichotomy m N with hlt | rfl | hgt
      · rw [hsame m (Nat.le_of_lt hlt), hbefore m hlt] at hc'
        exact hfits m c' hc'
      · rw [htakes] at hc'
        rw [List.mem_singleton.mp hc']
        exact hc
      · rw [hafter m hgt, takes_low] at hc'
        cases hc'
    · have hold : takenBefore (Function.update commands N c)
          (blitter (Function.update commands N c)) N = issued := by
        rw [takenBefore_agree (fun m hm => hsame m (Nat.le_of_lt hm)) hbefore,
          takenBefore_low hlow hN, htaken]
      rw [takenBefore_succ, hold, htakes]

end

end PicoGpu
