import PicoGpu.Util

/- The block `CommandStreamer`, cut at its two `wait()`s: the one at the head of the loop
   and the one that follows the launch of a command. A command is launched by signals
   that are up for one clock.

   Correspondence (command_streamer.cpp ↔ here):
     `draw`, `blit`                  ↔ the commands that they push
     `main` from a `wait()` on       ↔ `CommandStreamer.step`
   What the user pushes between two clocks is there at the next one. -/
namespace PicoGpu

/-- An address of the user's memory. -/
abbrev PointerType := BitVec 64

namespace Blitter

inductive CommandType where
  | none
  | copyToMem
  | copyFromMem
  | fillMem
  deriving DecidableEq, Repr

end Blitter

namespace CommandStreamer

inductive CommandType where
  | draw
  | blit
  deriving DecidableEq, Repr

structure BlitData where
  blitType : Blitter.CommandType
  memoryPtr : MemoryAddressType
  userPtr : PointerType
  sizeInDwords : Nat
  deriving DecidableEq, Repr

/-- `outTimeTaken` is one of the user's variables, or a null pointer. -/
structure Command where
  type : CommandType
  blitData : BlitData
  outTimeTaken : Option Nat
  deriving DecidableEq, Repr

end CommandStreamer

/-- The signals to the blitter. -/
structure BlitterSignals where
  commandType : Blitter.CommandType
  memoryPtr : MemoryAddressType
  userPtr : PointerType
  sizeInDwords : BitVec 16
  deriving DecidableEq, Repr

def BlitterSignals.low : BlitterSignals := ⟨.none, 0, 0, 0⟩

/-- The `wait()` that `CommandStreamer::main` is in. -/
inductive CommandStreamerPc where
  | start
  | launched
  deriving DecidableEq, Repr

structure CommandStreamer where
  pc : CommandStreamerPc
  command : CommandStreamer.Command
  beginTime : Nat
  commands : List CommandStreamer.Command
  paEnable : Bool
  bltBlock : BlitterSignals
  outBusy : Bool
  /-- the user's variables for the times, as far as they were written -/
  timeTaken : Nat → Option Nat

namespace CommandStreamer

def new : CommandStreamer where
  pc := .start
  command := ⟨.draw, ⟨.none, 0, 0, 0⟩, none⟩
  beginTime := 0
  commands := []
  paEnable := false
  bltBlock := .low
  outBusy := false
  timeTaken := fun _ => none

def draw (outTimeTaken : Option Nat) : Command := ⟨.draw, ⟨.none, 0, 0, 0⟩, outTimeTaken⟩

def blit (blitType : Blitter.CommandType) (memoryPtr : MemoryAddressType) (userPtr : PointerType)
    (sizeInDwords : Nat) (outTimeTaken : Option Nat) : Command :=
  ⟨.blit, ⟨blitType, memoryPtr, userPtr, sizeInDwords⟩, outTimeTaken⟩

/-- There is no command, or the others are busy. -/
def idle (time : Nat) (s : CommandStreamer) : CommandStreamer :=
  { s with
    outBusy := false
    timeTaken := fun v =>
      if s.command.outTimeTaken = some v then some (time - s.beginTime) else s.timeTaken v }

/-- The switch up to its `wait()`. -/
def launch (time : Nat) (command : Command) (s : CommandStreamer) : CommandStreamer :=
  let s := { s with pc := .launched, outBusy := true, command := command, beginTime := time }
  match command.type with
  | .draw => { s with paEnable := true }
  | .blit => { s with
      bltBlock := ⟨command.blitData.blitType, command.blitData.memoryPtr, command.blitData.userPtr,
        BitVec.ofNat 16 command.blitData.sizeInDwords⟩ }

/-- The switch from its `wait()` on. -/
def lower (s : CommandStreamer) : CommandStreamer :=
  match s.command.type with
  | .draw => { s with paEnable := false }
  | .blit => { s with bltBlock := .low }

/-- The command that is launched in this clock. -/
def dispatched (inpGpuBusyNoCs : Bool) (s : CommandStreamer) : Option Command :=
  match s.pc with
  | .start => if inpGpuBusyNoCs then none else s.commands.head?
  | .launched => none

def push (pushed : List Command) (s : CommandStreamer) : CommandStreamer :=
  { s with commands := s.commands ++ pushed }

/-- From a `wait()` to the next one. -/
def step (time : Nat) (inpGpuBusyNoCs : Bool) (s : CommandStreamer) : CommandStreamer :=
  match s.pc with
  | .start =>
    match s.dispatched inpGpuBusyNoCs with
    | some command => s.launch time command
    | none => s.idle time
  | .launched => { s.lower with pc := .start, commands := s.commands.tail }

/-! ## The launching signals -/

def Quiet (s : CommandStreamer) : Prop := s.paEnable = false ∧ s.bltBlock.commandType = .none

/-- The launching signals are up only behind a launch, and then the block is busy. -/
def Tracked (s : CommandStreamer) : Prop :=
  match s.pc with
  | .start => s.Quiet
  | .launched => s.outBusy = true ∧
      match s.command.type with
      | .draw => s.bltBlock.commandType = .none
      | .blit => s.paEnable = false

variable {s : CommandStreamer}

theorem tracked_new : new.Tracked := ⟨rfl, rfl⟩

theorem tracked_push (h : s.Tracked) (pushed : List Command) : (s.push pushed).Tracked := h

theorem tracked_step (h : s.Tracked) (time : Nat) (inpGpuBusyNoCs : Bool) :
    (s.step time inpGpuBusyNoCs).Tracked := by
  unfold Tracked at h
  unfold step
  cases hpc : s.pc with
  | start =>
    rw [hpc] at h
    obtain ⟨henable, htype⟩ := h
    dsimp only
    cases s.dispatched inpGpuBusyNoCs with
    | none =>
      have hquiet : (s.idle time).Quiet := ⟨henable, htype⟩
      unfold Tracked
      rw [show (s.idle time).pc = .start from hpc]
      exact hquiet
    | some command =>
      cases hcommand : command.type with
      | draw =>
        simp only [launch, hcommand, Tracked]
        exact ⟨trivial, htype⟩
      | blit =>
        simp only [launch, hcommand, Tracked]
        exact ⟨trivial, henable⟩
  | launched =>
    rw [hpc] at h
    obtain ⟨-, h⟩ := h
    show Quiet _
    cases hcommand : s.command.type with
    | draw =>
      rw [hcommand] at h
      simp only [lower, hcommand]
      exact ⟨rfl, h⟩
    | blit =>
      rw [hcommand] at h
      simp only [lower, hcommand]
      exact ⟨h, rfl⟩

theorem Tracked.quiet (h : s.Tracked) (hbusy : s.outBusy = false) : s.Quiet := by
  unfold Tracked at h
  split at h
  · exact h
  · rw [hbusy] at h
    cases h.1

end CommandStreamer

end PicoGpu
