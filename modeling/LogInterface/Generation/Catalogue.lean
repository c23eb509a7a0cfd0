/-
# Generation.Catalogue -- interfaces that can be called by name

Some interfaces of a service and one that reaches into the corners, written as
source.  `catalogued?` generates the companion of one of them, so that what is
called is what the generator makes.
-/
import LogInterface.Companion.Call
import LogInterface.Generation.Basic

namespace LogInterface

set_option autoImplicit false

def clientSource : String :=
  "#[logger_extensions]\n#[allow(non_snake_case)]\npub trait ILoggerExtensions \x7b
    /// Reports that a socket could not be opened.
    #[logger_message(0, Critical, \"Could not open socket to `\x7bhostName\x7d`\")]
    fn could_not_open_socket(&self, hostName: &str);
\x7d"

def serviceSource : String :=
  "#[logger_extensions]\npub trait IServiceEvents \x7b
    #[logger_message(1, Information, \"Service \x7bname\x7d started on \x7baddress\x7d\")]
    fn started(&self, name: &str, address: SocketAddr);

    #[logger_message(2, Warning, \"Retrying \x7boperation\x7d (attempt \x7battempt\x7d of \x7bmax_attempts\x7d)\")]
    fn retrying(&self, operation: &str, attempt: u32, max_attempts: u32);

    #[logger_message(3, Debug, \"\x7b\x7bcache\x7d\x7d hit ratio \x7bratio\x7d for \x7bname\x7d, \x7bname\x7d again\")]
    fn cache_ratio(&self, name: &str, ratio: f64);

    #[logger_message(4, Trace, \"Heartbeat\")]
    fn heartbeat(&self);

    /// Status and path are logged as structured fields only.
    #[logger_message(5, Error, \"Request failed\")]
    fn request_failed(&self, status: u16, path: &str);

    #[logger_message(id = -1, level = Critical, message = \"Shutting down: \x7breason\x7d\")]
    fn shutting_down(&self, reason: Option<&str>);

    #[logger_message(6, Information, \"Handled \x7brequest\x7d in \x7belapsed_ms\x7dms\")]
    fn handled(&self, request: RequestId, elapsed_ms: u64);
\x7d"

/-- An interface whose runtime is a re-export. -/
def reexportedSource : String :=
  "#[logger_extensions(crate = crate::interfaces::rt)]\npub trait IReexported \x7b
    #[logger_message(30, Warning, \"Through a re-export: \x7bvalue\x7d\")]
    fn through_reexport(&self, value: i64);
\x7d"

def aliasedSource : String :=
  "#[tl::logger_extensions(crate = tl)]\npub trait IAliased \x7b
    #[logger_message(40, Warning, \"Aliased \x7bvalue\x7d\")]
    fn through_alias(&self, value: i64);
\x7d"

/-- An interface whose runtime is found from the module outside. -/
def relativeSource : String :=
  "#[typed_logging::logger_extensions(crate = super::rt)]\npub trait IRelative \x7b
    #[logger_message(41, Information, \"Relative \x7bvalue\x7d\")]
    fn through_super(&self, value: i64);
\x7d"

def probeSource : String :=
  "#[logger_extensions(name = \"ProbeLog\")]\npub trait IProbe \x7b
    #[logger_message(100, Trace, \"\x7ba\x7d\x7bb\x7d\x7ba\x7d\")]
    fn adjacent(&self, a: &str, b: &str);
    #[logger_message(101, Debug, \"\")]
    fn empty(&self);
    #[logger_message(102, Information, \"\x7b\x7b\x7d\x7d \x7b\x7b\x7bx\x7d\x7d\x7d \x7d \x7bx\x7d\x7d\x7d\")]
    fn braces(&self, x: i64);
    #[logger_message(-2147483648, Warning, \"\x7ba\x7d \x7bb\x7d \x7bc\x7d \x7bd\x7d \x7be\x7d\")]
    fn scalars(&self, a: i8, b: u64, c: i128, d: u128, e: bool);
    #[logger_message(level = Error, id = 2147483647, message = \"took \x7bd\x7d, \x7bmissing\x7d\")]
    fn took(&self, d: Duration, missing: Option<&str>);
    #[logger_message(103, Critical, \"line1\\n\\t\\\"é\x7bp\x7d\\\" \\u\x7b1F600\x7d\\\\\")]
    fn wrote(&self, p: &Path);
    #[logger_message(104, Information, \"\x7bthird\x7d-\x7bfirst\x7d\")]
    fn reordered(&self, first: &str, second: &str, third: &str);
    #[logger_message(105, Debug, \"any \x7bvalue\x7d\")]
    fn any(&self, value: &Arg);
    #[logger_message(106, Warning, \"only fields\")]
    fn hidden(&self, r#fn: &Arg, r#match: &Arg);
    #[logger_message(107, Error, \"\x7btype\x7d=\x7bvalue\x7d;\x7btype\x7d=\x7bvalue\x7d\")]
    fn r#loop(&self, value: &Arg, r#type: &Arg);
\x7d"

def catalogue : List (String × String) :=
  [("ILoggerExtensions", clientSource), ("IServiceEvents", serviceSource),
   ("IReexported", reexportedSource), ("IAliased", aliasedSource),
   ("IRelative", relativeSource), ("IProbe", probeSource)]

def SourceFile.firstTrait? (f : SourceFile) : Option TraitDecl :=
  f.items.findSome? fun item =>
    match item with
    | .trait t => some t
    | _ => none

def catalogued? (name : String) : Option Companion := do
  let (_, source) ← catalogue.find? (·.1 == name)
  let file ← (SourceFile.ofSource source).toOption
  let t ← file.firstTrait?
  let e ← (expand t (Settings.context {} false t)).toOption
  return e.companion

end LogInterface
