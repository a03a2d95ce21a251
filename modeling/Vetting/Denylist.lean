import Vetting.Json.Decode
import Vetting.NameSet

/-!
The denylist: names of modules, callables and attributes that code must not use. It catches known ways
out of a namespace and is no proof that other code is safe.
-/

namespace Vetting

/-- Forbidden names. A valid denylist keeps its three sets apart. -/
structure Denylist where
  modules : NameSet
  callables : NameSet
  attributes : NameSet

namespace Denylist

def defaultModules : List String := [
  "_thread", "asyncio", "builtins", "code", "codeop", "ctypes", "fcntl", "ftplib", "gc", "glob",
  "http", "importlib", "inspect", "io", "marshal", "mmap", "multiprocessing", "nt", "os", "pathlib",
  "pickle", "posix", "pty", "requests", "resource", "shelve", "shutil", "signal", "smtplib",
  "socket", "subprocess", "sys", "telnetlib", "tempfile", "threading", "urllib", "webbrowser"]

def defaultCallables : List String := [
  "__import__", "breakpoint", "compile", "delattr", "eval", "exec", "exit", "getattr", "globals",
  "help", "input", "locals", "memoryview", "open", "quit", "setattr", "vars", "os.execv", "os.fork",
  "os.kill", "os.popen", "os.remove", "os.spawnl", "os.system", "pickle.load", "pickle.loads",
  "shutil.rmtree", "subprocess.Popen", "subprocess.call", "subprocess.check_call",
  "subprocess.check_output", "subprocess.run"]

def defaultAttributes : List String := [
  "__base__", "__bases__", "__builtins__", "__class__", "__closure__", "__code__", "__dict__",
  "__func__", "__getattribute__", "__globals__", "__loader__", "__mro__", "__reduce__",
  "__reduce_ex__", "__self__", "__spec__", "__subclasses__", "co_code", "cr_frame", "f_back",
  "f_builtins", "f_globals", "f_locals", "gi_code", "gi_frame", "tb_frame"]

/-- Modules that are forbidden besides at run time when there is no network. -/
def networkModules : List String := [
  "asyncio", "ftplib", "http", "smtplib", "socket", "ssl", "urllib"]

def standard : Denylist :=
  ⟨.ofList defaultModules, .ofList defaultCallables, .ofList defaultAttributes⟩

/-- Forbids nothing. -/
def empty : Denylist := ⟨.empty, .empty, .empty⟩

/-- Names that are added to one of the sets of a denylist. -/
inductive Addition
  | modules (names : List String)
  | callables (names : List String)
  | attributes (names : List String)

/-- The denylist with names added. -/
def extend (d : Denylist) : Addition → Denylist
  | .modules names => { d with modules := d.modules.insertMany names }
  | .callables names => { d with callables := d.callables.insertMany names }
  | .attributes names => { d with attributes := d.attributes.insertMany names }

/-- The first name that is in two sets: modules and callables are looked at first, callables and
attributes last. -/
def overlap? (d : Denylist) : Option String :=
  (d.modules.firstCommon? d.callables)
    <|> (d.modules.firstCommon? d.attributes)
    <|> (d.callables.firstCommon? d.attributes)

/-- What stands before each point of a dotted name. -/
def pathPrefixes (seen : List Char) : List Char → List (List Char)
  | [] => []
  | c :: rest =>
    if c = '.' then seen.reverse :: pathPrefixes (c :: seen) rest else pathPrefixes (c :: seen) rest

/-- Whether a module or one of the packages that hold it is forbidden. -/
def forbidsModule (d : Denylist) (name : String) : Bool :=
  d.modules.contains name
    || (pathPrefixes [] name.toList).any fun p => d.modules.contains (String.ofList p)

def forbidsCallable (d : Denylist) (name : String) : Bool := d.callables.contains name

def forbidsAttribute (d : Denylist) (name : String) : Bool := d.attributes.contains name

/-- The forbidden callables whose names have no point. -/
def builtinCallables (d : Denylist) : List String :=
  d.callables.toList.filter fun n => !n.toList.contains '.'

/-- Whether two denylists forbid the same names. -/
def sameAs (a b : Denylist) : Bool :=
  a.modules.sameNames b.modules && a.callables.sameNames b.callables
    && a.attributes.sameNames b.attributes

def namesJson (s : NameSet) : Json := .arr (s.toList.map .str)

def toJson (d : Denylist) : Json :=
  .obj [("modules", namesJson d.modules), ("callables", namesJson d.callables),
    ("attributes", namesJson d.attributes)]

def namesDecoder : Json.Decoder NameSet := (Json.Decoder.list .string).map NameSet.ofList

def shape : Json.Shape Denylist where
  name := "struct PatternRegistry"
  start := .standard
  fields := [
    .defaulted "modules" namesDecoder fun v r => { r with modules := v },
    .defaulted "callables" namesDecoder fun v r => { r with callables := v },
    .defaulted "attributes" namesDecoder fun v r => { r with attributes := v }]

end Denylist

end Vetting
