import DeltaLang.Text.Decimal

/-!
The words of IR text: the names of types, instructions, linkages, attributes and the like. All other
words mean nothing.
-/

namespace DeltaLang.Ir

/-- Words of the module and its globals. -/
def moduleWords : List String :=
  ["addrspace", "alias", "align", "any", "appending", "asm", "attributes", "available_externally",
    "c", "comdat", "common", "constant", "datalayout", "declare", "default", "define", "distinct",
    "dllexport", "dllimport", "dso_local", "dso_preemptable", "exactmatch", "extern_weak",
    "external", "externally_initialized", "gc", "global", "hidden", "ifunc", "initialexec",
    "internal", "largest", "linkonce", "linkonce_odr", "local_unnamed_addr", "localdynamic",
    "localexec", "module", "noduplicates", "opaque", "partition", "personality", "prefix",
    "private", "prologue", "protected", "samesize", "section", "source_filename", "target",
    "thread_local", "triple", "type", "unnamed_addr", "uselistorder", "uselistorder_bb", "weak",
    "weak_odr"]

/-- Names of types, and words inside of types and constants. -/
def typeWords : List String :=
  ["blockaddress", "double", "false", "float", "fp128", "half", "label", "metadata", "none", "null",
    "ppc_fp128", "token", "true", "undef", "void", "vscale", "x", "x86_fp80", "x86_mmx",
    "zeroinitializer"]

/-- Attributes that stand alone behind the parameters of a function. -/
def functionAttributes : List String :=
  ["alwaysinline", "argmemonly", "builtin", "cold", "convergent", "inaccessiblemem_or_argmemonly",
    "inaccessiblememonly", "inlinehint", "jumptable", "minsize", "naked", "nobuiltin", "nocf_check",
    "noduplicate", "nofree", "noimplicitfloat", "noinline", "nonlazybind", "norecurse", "noredzone",
    "noreturn", "nosync", "nounwind", "optforfuzzing", "optnone", "optsize", "readnone", "readonly",
    "returns_twice", "sanitize_address", "sanitize_hwaddress", "sanitize_memory", "sanitize_memtag",
    "sanitize_thread", "shadowcallstack", "speculatable", "speculative_load_hardening", "ssp",
    "sspreq", "sspstrong", "strictfp", "uwtable", "willreturn", "writeonly"]

/-- Attributes that stand alone before a parameter. -/
def parameterAttributes : List String :=
  ["byval", "immarg", "inalloca", "inreg", "nest", "noalias", "nocapture", "nofree", "nonnull",
    "readnone", "readonly", "returned", "signext", "sret", "swifterror", "swiftself", "writeonly",
    "zeroext"]

/-- Attributes that a number follows. -/
def measuredAttributes : List String :=
  ["alignstack", "allocsize", "dereferenceable", "dereferenceable_or_null"]

/-- Conventions for calls. -/
def conventions : List String :=
  ["aarch64_sve_vector_pcs", "aarch64_vector_pcs", "amdgpu_cs", "amdgpu_es", "amdgpu_gs",
    "amdgpu_hs", "amdgpu_kernel", "amdgpu_ls", "amdgpu_ps", "amdgpu_vs", "anyregcc",
    "arm_aapcs_vfpcc", "arm_aapcscc", "arm_apcscc", "avr_intrcc", "avr_signalcc", "ccc",
    "cfguard_checkcc", "coldcc", "cxx_fast_tlscc", "fastcc", "ghccc", "hhvm_ccc", "hhvmcc",
    "intel_ocl_bicc", "msp430_intrcc", "preserve_allcc", "preserve_mostcc", "ptx_device",
    "ptx_kernel", "spir_func", "spir_kernel", "swiftcc", "tailcc", "webkit_jscc", "win64cc",
    "x86_64_sysvcc", "x86_fastcallcc", "x86_intrcc", "x86_regcallcc", "x86_stdcallcc",
    "x86_thiscallcc", "x86_vectorcallcc"]

/-- Names of instructions. -/
def instructionWords : List String :=
  ["add", "addrspacecast", "alloca", "and", "ashr", "atomicrmw", "bitcast", "br", "call", "callbr",
    "catchpad", "catchret", "catchswitch", "cleanuppad", "cleanupret", "cmpxchg", "extractelement",
    "extractvalue", "fadd", "fcmp", "fdiv", "fence", "fmul", "fneg", "fpext", "fptosi", "fptoui",
    "fptrunc", "freeze", "frem", "fsub", "getelementptr", "icmp", "indirectbr", "insertelement",
    "insertvalue", "inttoptr", "invoke", "landingpad", "load", "lshr", "mul", "or", "phi",
    "ptrtoint", "resume", "ret", "sdiv", "select", "sext", "shl", "shufflevector", "sitofp", "srem",
    "store", "sub", "switch", "trunc", "udiv", "uitofp", "unreachable", "urem", "va_arg", "xor",
    "zext"]

/-- Words inside of instructions. -/
def operandWords : List String :=
  ["acq_rel", "acquire", "afn", "arcp", "atomic", "caller", "catch", "cc", "cleanup", "contract",
    "eq", "exact", "fast", "filter", "from", "inbounds", "inrange", "inteldialect", "max", "min",
    "monotonic", "musttail", "nand", "ne", "ninf", "nnan", "notail", "nsw", "nsz", "nuw", "oeq",
    "oge", "ogt", "ole", "olt", "one", "ord", "reassoc", "release", "seq_cst", "sge", "sgt",
    "sideeffect", "sle", "slt", "syncscope", "tail", "to", "ueq", "uge", "ugt", "ule", "ult",
    "umax", "umin", "une", "uno", "unordered", "unwind", "volatile", "within", "xchg"]

/-- Words of information for debuggers. -/
def debugWords : List String :=
  ["DebugDirectivesOnly", "Default", "FullDebug", "GNU", "LineTablesOnly", "NoDebug", "None"]

/-- What the names of kinds and flags in information for debuggers begin with. -/
def debugFamilies : List String :=
  ["CSK_", "DIFlag", "DISPFlag", "DW_ATE_", "DW_CC_", "DW_LANG_", "DW_MACINFO_", "DW_OP_",
    "DW_TAG_", "DW_VIRTUALITY_"]

def keywords : List String :=
  moduleWords ++ typeWords ++ functionAttributes ++ parameterAttributes ++ measuredAttributes ++
    conventions ++ instructionWords ++ operandWords ++ debugWords

/-- The width of the integers that a word like `i32` names. -/
def intBits? (word : List Char) : Option Nat :=
  match word with
  | 'i' :: digits =>
    if !digits.isEmpty && digits.all Decimal.isDigit then some (Decimal.value digits) else none
  | _ => none

/-- Whether a word is a name of a kind or flag in information for debuggers. -/
def isDebugName (word : List Char) : Bool :=
  debugFamilies.any fun family =>
    family.toList.isPrefixOf word &&
      (word.drop family.length).all fun c => c.isAlphanum || c = '_'

/-- Whether a word means something. -/
def isKeyword (word : List Char) : Bool :=
  (intBits? word).isSome || keywords.contains (String.ofList word) || isDebugName word

end DeltaLang.Ir
