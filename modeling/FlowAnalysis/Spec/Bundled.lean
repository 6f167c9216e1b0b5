import FlowAnalysis.Spec.Basic

/-!
# Bundled specifications

Specifications of the built-in functions and types and of a few common libraries.
-/

namespace FlowAnalysis

namespace Spec

/-- Functions that mutate nothing. -/
def pureFunctions (names : List String) : List FunctionSpec :=
  names.map fun name => { name }

/-- A function that mutates the arguments at some positions. -/
def mutating (name : String) (positions : List Nat) : FunctionSpec :=
  { name, updates := positions.map .position }

/-- Functions that mutate the argument or receiver at one position. -/
def mutatingAt (position : Nat) (names : List String) : List FunctionSpec :=
  names.map fun name => mutating name [position]

/-- Functions that mutate nothing and return a value of a type. -/
def returning (type : String) (names : List String) : List FunctionSpec :=
  names.map fun name => { name, returns := some type }

/-- Functions that change the global state of their library. -/
def mutatingState (names : List String) : List FunctionSpec :=
  names.map fun name => { name, updates := [.name "$global"] }

/-- The methods of the type `list` of the module `__builtins__`. -/
def builtinsTypeList : TypeSpec :=
  { methods :=
      mutatingAt 0 ["append", "extend", "insert", "remove", "pop", "clear", "sort", "reverse"] ++
      pureFunctions ["index", "count"] ++
      returning "list" ["copy"] }

/-- The methods of the type `dict` of the module `__builtins__`. -/
def builtinsTypeDict : TypeSpec :=
  { methods :=
      mutatingAt 0 ["update", "pop", "popitem", "setdefault", "clear"] ++
      pureFunctions ["get", "keys", "values", "items"] ++
      returning "dict" ["copy"] }

/-- The methods of the type `set` of the module `__builtins__`. -/
def builtinsTypeSet : TypeSpec :=
  { methods :=
      mutatingAt 0 ["add", "discard", "remove", "pop", "update", "clear"] ++
      pureFunctions ["union", "intersection", "difference", "issubset", "issuperset"] }

/-- The methods of the type `file` of the module `__builtins__`. -/
def builtinsTypeFile : TypeSpec :=
  { methods :=
      mutatingAt 0
        ["write", "writelines", "read", "readline", "readlines", "seek", "close", "flush"] }

/-- The module `__builtins__`. -/
def builtins : ModuleSpec :=
  { functions :=
      pureFunctions
        ["abs", "all", "any", "ascii", "bin", "bool", "bytes", "callable", "chr", "complex",
          "divmod", "enumerate", "filter", "float", "format", "frozenset", "getattr", "hasattr",
          "hash", "hex", "id", "input", "int", "isinstance", "issubclass", "iter", "len", "map",
          "max", "min", "oct", "ord", "pow", "print", "range", "repr", "reversed", "round",
          "sorted", "str", "sum", "tuple", "type", "zip"] ++
      returning "list" ["list"] ++
      returning "dict" ["dict"] ++
      returning "set" ["set"] ++
      returning "file" ["open"] ++
      mutatingAt 1 ["next", "setattr", "delattr"]
    types :=
      [("list", builtinsTypeList), ("dict", builtinsTypeDict), ("set", builtinsTypeSet),
        ("file", builtinsTypeFile)]
    modules := [] }

/-- The methods of the type `Random` of the module `random`. -/
def randomTypeRandom : TypeSpec :=
  { methods :=
      mutatingAt 0 ["seed", "random", "randint", "choice"] ++
      [{ name := "shuffle", updates := [.position 0, .position 1] }] }

/-- The module `random`. -/
def random : ModuleSpec :=
  { functions :=
      mutatingState ["seed"] ++
      pureFunctions
        ["random", "randint", "randrange", "uniform", "choice", "choices", "sample", "gauss"] ++
      mutatingAt 1 ["shuffle"] ++
      returning "Random" ["Random"]
    types := [("Random", randomTypeRandom)]
    modules := [] }

/-- The module `numpy.random`. -/
def numpyRandom : ModuleSpec :=
  { functions :=
      mutatingState ["seed"] ++
      pureFunctions ["rand", "randn", "randint", "choice", "normal", "uniform"] ++
      mutatingAt 1 ["shuffle"]
    types := []
    modules := [] }

/-- The module `numpy.linalg`. -/
def numpyLinalg : ModuleSpec :=
  { functions :=
      pureFunctions ["norm", "inv", "det", "eig", "svd", "solve"]
    types := []
    modules := [] }

/-- The methods of the type `ndarray` of the module `numpy`. -/
def numpyTypeNdarray : TypeSpec :=
  { methods :=
      mutatingAt 0 ["fill", "sort", "resize", "itemset"] ++
      pureFunctions ["mean", "sum", "min", "max", "reshape", "flatten", "tolist", "astype"] ++
      returning "ndarray" ["copy"] }

/-- The module `numpy`. -/
def numpy : ModuleSpec :=
  { functions :=
      returning "ndarray"
        ["array", "zeros", "ones", "empty", "arange", "linspace", "concatenate"] ++
      mutatingAt 1 ["copyto", "put", "fill_diagonal"] ++
      pureFunctions
        ["mean", "median", "std", "var", "sum", "prod", "min", "max", "argmin", "argmax",
          "sqrt", "exp", "log", "abs", "dot", "where", "shape", "reshape", "transpose", "unique"]
    types := [("ndarray", numpyTypeNdarray)]
    modules := [("random", numpyRandom), ("linalg", numpyLinalg)] }

/-- The methods of the type `DataFrame` of the module `pandas`. -/
def pandasTypeDataFrame : TypeSpec :=
  { methods :=
      pureFunctions ["to_csv"] ++
      mutatingAt 0 ["insert", "pop", "update"] ++
      pureFunctions
        ["head", "tail", "describe", "info", "groupby", "merge", "join", "drop", "dropna",
          "fillna", "sort_values", "apply", "query", "plot", "copy", "reset_index", "set_index"] }

/-- The module `pandas`. -/
def pandas : ModuleSpec :=
  { functions :=
      returning "DataFrame"
        ["read_csv", "read_json", "read_excel", "DataFrame", "concat", "merge"] ++
      pureFunctions ["to_datetime", "to_numeric", "isna", "notna", "Series"]
    types := [("DataFrame", pandasTypeDataFrame)]
    modules := [] }

/-- The methods of the type `Figure` of the module `matplotlib.pyplot`. -/
def matplotlibPyplotTypeFigure : TypeSpec :=
  { methods :=
      pureFunctions ["savefig"] ++
      mutatingAt 0 ["add_subplot", "suptitle"] }

/-- The module `matplotlib.pyplot`. -/
def matplotlibPyplot : ModuleSpec :=
  { functions :=
      mutatingState
        ["figure", "plot", "scatter", "bar", "hist", "xlabel", "ylabel", "title", "legend"] ++
      pureFunctions ["savefig", "show"] ++
      returning "Figure" ["subplots"]
    types := [("Figure", matplotlibPyplotTypeFigure)]
    modules := [] }

/-- The module `matplotlib`. -/
def matplotlib : ModuleSpec :=
  { functions :=
      []
    types := []
    modules := [("pyplot", matplotlibPyplot)] }

/-- The specifications that are always at hand. -/
def bundled : Specs :=
  [("__builtins__", builtins),
    ("random", random),
    ("numpy", numpy),
    ("pandas", pandas),
    ("matplotlib", matplotlib)]

end Spec

end FlowAnalysis
