import PicoGpu.EntryCache
import PicoGpu.Isa
import PicoGpu.Memory

/- What the block `ShaderFrontend` computes: the sizes of a request's streams, the
   checks of a request against a stored ISA, and the cache through which programs
   come from memory to the shader units. The memory answers as `atomicMemory` does
   (`memory_atomic`), so the loads of one program are the values it holds. -/
namespace PicoGpu

/-- request.h; the dwords of the request are its fields. -/
structure ShaderFrontendRequest where
  isaAddress : MemoryAddressType
  clientToken : BitVec 16
  threadCount : BitVec 5
  programType : ProgramType
  inputsCount : BitVec 2
  inputSize0 : BitVec 2
  inputSize1 : BitVec 2
  inputSize2 : BitVec 2
  outputsCount : BitVec 2
  outputSize0 : BitVec 2
  outputSize1 : BitVec 2
  outputSize2 : BitVec 2
  uniformsCount : BitVec 3
  uniformSize0 : BitVec 2
  uniformSize1 : BitVec 2
  uniformSize2 : BitVec 2
  deriving DecidableEq, Repr

/-- The sizes of the first `count` of three registers. -/
def componentsOf (count : Nat) (size0 size1 size2 : BitVec 2) : Nat :=
  (if count > 0 then nonZeroCountToInt size0 else 0) +
  (if count > 1 then nonZeroCountToInt size1 else 0) +
  (if count > 2 then nonZeroCountToInt size2 else 0)

def calculateShaderInputsCount (request : ShaderFrontendRequest) : Nat :=
  let attributesCount := nonZeroCountToInt request.inputsCount
  let uniforms := componentsOf request.uniformsCount.toNat request.uniformSize0
    request.uniformSize1 request.uniformSize2
  if request.programType = .fragmentShader then
    -- x and y of each thread, and for each vertex its position and its attributes
    2 * nonZeroCountToInt request.threadCount +
      (3 * (3 + (if attributesCount > 1 then nonZeroCountToInt request.inputSize1 else 0) +
        (if attributesCount > 2 then nonZeroCountToInt request.inputSize2 else 0)) + uniforms)
  else
    componentsOf attributesCount request.inputSize0 request.inputSize1 request.inputSize2 *
      nonZeroCountToInt request.threadCount + uniforms

def calculateShaderOutputsCount (request : ShaderFrontendRequest) : Nat :=
  componentsOf (nonZeroCountToInt request.outputsCount) request.outputSize0 request.outputSize1
    request.outputSize2 * nonZeroCountToInt request.threadCount

def fatalErrorIf (condition : Bool) (error : FatalError) : Except FatalError Unit :=
  if condition then .error error else .ok ()

def validateRequest (request : ShaderFrontendRequest) (isaCommand : CommandStoreIsa) :
    Except FatalError Unit := do
  fatalErrorIf (isaCommand.inputsCount ≠ request.inputsCount) "Invalid inputs count"
  let inputsCount := nonZeroCountToInt isaCommand.inputsCount
  if request.programType = .fragmentShader then
    fatalErrorIf (request.inputSize0 ≠ intToNonZeroCount 2 2) "Invalid inputSize0 in FS request"
    fatalErrorIf (isaCommand.inputs.size0 ≠ intToNonZeroCount 2 4)
      "Invalid inputSize0 in FS binary"
  else
    fatalErrorIf (isaCommand.inputs.size0 ≠ request.inputSize0) "Invalid inputSize0"
  fatalErrorIf (inputsCount > 1 && isaCommand.inputs.size1 ≠ request.inputSize1)
    "Invalid inputSize1"
  fatalErrorIf (inputsCount > 2 && isaCommand.inputs.size2 ≠ request.inputSize2)
    "Invalid inputSize2"
  fatalErrorIf (isaCommand.outputsCount ≠ request.outputsCount) "Invalid outputs count"
  let outputsCount := nonZeroCountToInt isaCommand.outputsCount
  fatalErrorIf (isaCommand.outputs.size0 ≠ request.outputSize0) "Invalid outputSize0"
  fatalErrorIf (outputsCount > 1 && isaCommand.outputs.size1 ≠ request.outputSize1)
    "Invalid outputSize1"
  fatalErrorIf (outputsCount > 2 && isaCommand.outputs.size2 ≠ request.outputSize2)
    "Invalid outputSize2"
  fatalErrorIf (isaCommand.uniformsCount ≠ request.uniformsCount) "Invalid uniforms count"
  let uniformsCount := isaCommand.uniformsCount.toNat
  fatalErrorIf (uniformsCount > 0 && isaCommand.uniforms.size0 ≠ request.uniformSize0)
    "Invalid uniformSize0"
  fatalErrorIf (uniformsCount > 1 && isaCommand.uniforms.size1 ≠ request.uniformSize1)
    "Invalid uniformSize1"
  fatalErrorIf (uniformsCount > 2 && isaCommand.uniforms.size2 ≠ request.uniformSize2)
    "Invalid uniformSize2"

/-! ## The ISA cache -/

/-- The dwords of `data` that `dataSize` counts. -/
structure IsaCacheEntry where
  data : List Dword
  deriving DecidableEq, Repr

def IsaCacheEntry.getMetadata (entry : IsaCacheEntry) : CommandStoreIsa :=
  .ofRaw fun k => entry.data.getD k 0

/-- `invalidAddress`, and the `loadedIsaAddress` of every shader unit: the source
    never assigns it. -/
def invalidAddress : MemoryAddressType := 0xffffffff

/-- `isaCacheSize` is 2. -/
abbrev IsaCache := EntryCache MemoryAddressType IsaCacheEntry 1

def IsaCache.new : IsaCache := EntryCache.new 1 invalidAddress ⟨[]⟩

/-- The address of dword `k` from `base` on. -/
def dwordAddress (base : MemoryAddressType) (k : Nat) : MemoryAddressType :=
  base + BitVec.ofNat 32 (4 * k)

/-- As many iterations of the loop of `getIsa`, behind the dwords it has loaded. -/
def loadIsa (memory : MemoryAddressType → MemoryDataType) (isaAddress : MemoryAddressType) :
    Nat → List Dword → Except FatalError (List Dword)
  | 0, data => .ok data
  | dwordsToLoad + 1, data =>
    if data.length ≥ Isa.maxIsaSize then .error "Too big ISA to fit in cache"
    else loadIsa memory isaAddress dwordsToLoad
      (data ++ [memory (dwordAddress isaAddress data.length)])

def getIsa (memory : MemoryAddressType → MemoryDataType) (cache : IsaCache)
    (isaAddress : MemoryAddressType) : Except FatalError (Fin 2 × IsaCache) :=
  match cache.get isaAddress with
  | some found => .ok found
  | none => do
    let data ← loadIsa memory isaAddress 1 []
    let command := (IsaCacheEntry.mk data).getMetadata
    fatalErrorIf (command.commandType ≠ .storeIsa) "Invalid command header"
    fatalErrorIf (command.programLength = 0) "Invalid program length"
    let data ← loadIsa memory isaAddress
      (command.programLength.toNat + Isa.commandSizeInDwords - 1) data
    return cache.put isaAddress ⟨data⟩

/-- `hasNextCommand = true` in the first dword of the header. -/
def setHasNextCommand : List Dword → List Dword
  | [] => []
  | dword :: data => (dword ||| 0b10) :: data

/-- The dwords that `storeIsa` sends, and the cache it leaves. -/
def storeIsa (cache : IsaCache) (slot : Fin 2) : List Dword × IsaCache :=
  let cache := cache.modify slot fun entry => ⟨setHasNextCommand entry.data⟩
  ((cache.entries slot).value.data, cache)

/-- The part of `requestThread` between the request and the command to execute it:
    the program that goes to the shader unit, if any. -/
def loadProgram (memory : MemoryAddressType → MemoryDataType) (cache : IsaCache)
    (request : ShaderFrontendRequest) : Except FatalError (Option (List Dword) × IsaCache) :=
  if request.isaAddress = invalidAddress then .ok (none, cache)
  else do
    let (slot, cache) ← getIsa memory cache request.isaAddress
    validateRequest request (cache.entries slot).value.getMetadata
    let (data, cache) := storeIsa cache slot
    return (some data, cache)

end PicoGpu
