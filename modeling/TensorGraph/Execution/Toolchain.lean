import TensorGraph.Fault

/-!
# Compilers

Each kind of machine has a compiler of its own, with options that depend on the machine's
architecture and on where the headers of the kernel libraries are.
-/

namespace TensorGraph.Execution

/-- A command that makes an object of a source: all that stands before the names of the two. -/
structure Compiler where
  head : String
deriving DecidableEq, Inhabited, Repr

def Compiler.line (c : Compiler) (object source : String) : String :=
  s!"{c.head} -o {object} {source}"

structure Toolchain where
  program : String
  options : String
  /-- the ending of source files, without the dot -/
  extension : String
  /-- asks for code that can be moved -/
  movable : String
deriving DecidableEq, Inhabited, Repr

namespace Toolchain

/-- The toolchain of one family of machines; `includes` are the directories that are searched for
headers. -/
def cuda (arch : String) (includes : List String) : Toolchain where
  program := "nvcc"
  options := " ".intercalate (
    ["-DCUTLASS_ENABLE_TENSOR_CORE_MMA=1", "-DCUTLASS_USE_TANH_FOR_SIGMOID=1", "-w",
     s!"-gencode=arch=compute_{arch},code=[sm_{arch},compute_{arch}]", "-Xcompiler=-fPIC",
       "-Xcompiler=-Wconversion",
     "-Xcompiler=-fno-strict-aliasing", "-Xcompiler -fvisibility=hidden", "-O3", "-std=c++17",
     "--expt-relaxed-constexpr", "--use_fast_math"] ++ includes.map fun d => "-I" ++ d)
  extension := "cu"
  movable := "-Xcompiler=-fPIC"

/-- The toolchain of the other family, with the system's own libraries below `system`. -/
def rocm? (arch system : String) (includes : List String) : Except Fault Toolchain := do
  let machine ←
    if arch == "GFX908" || arch == "gfx908" then
      pure ["-DCK_AMD_GPU_GFX908", "--amdgpu-target=gfx908"]
    else if arch == "GFX90a" || arch == "gfx90a" then
      pure ["-DCK_AMD_GPU_GFX90A", "--amdgpu-target=gfx90a"]
    else throw .unknownArch
  return {
    program := "hipcc"
    options := " ".intercalate (
      ["-O3", "-fPIC", "-fvisibility=hidden", "-std=c++17", "-w", "-DCK_TIME_KERNEL=0",
       s!"-Xclang -mlink-builtin-bitcode -Xclang {system}/amdgcn/bitcode/oclc_abi_version_400.bc"] ++
      machine ++ includes.map (fun d => "-I" ++ d) ++ [s!"-L{system}/rocrand/lib/", "-lrocrand"])
    extension := "cpp"
    movable := "-fPIC" }

/-- The command for one source; for a program of its own, or for an object. -/
def compiler (t : Toolchain) (executable : Bool) : Compiler :=
  ⟨if executable then s!"{t.program} {t.options}" else s!"{t.program} {t.options} -c"⟩

def binaryCompiler : Compiler := ⟨"ld -r -b binary"⟩

def linkLine (t : Toolchain) (library : String) (objects : List String) : String :=
  s!"{t.program} -shared {t.movable}  -o {library} " ++ " ".intercalate objects

def makefile (t : Toolchain) (objects : List String) (library : String) : String :=
  "\n".intercalate
    ["", s!"CC = {t.program}", "CFLAGS = ", s!"fPIC_flag = {t.movable}", "",
     "obj_files = " ++ " ".intercalate (objects.map fun o => (o.splitOn "/").getLastD ""), "",
     s!"%.obj : %.{t.extension}", "\t" ++ (t.compiler false).line "$@" "$<", "%.obj : %.bin",
     "\t" ++ binaryCompiler.line "$@" "$<", "", ".PHONY: all", s!"all: {library}", "",
       s!"{library}: $(obj_files)",
     "\t$(CC) -shared $(fPIC_flag) $(CFLAGS) -o $@ $(obj_files)", "", "clean:",
       "\trm -f *.obj test.so"]

end Toolchain

end TensorGraph.Execution
