import BarBridge.Jsonc.Reader
import BarBridge.Template

/-!
# Failures

Everything that can end a conversion early, as causes, with the wording shown to the user, a code
that names the kind of failure, and advice where there is any. A bar configuration that cannot be
read has no code: it is reported as the file system states it.
-/

namespace BarBridge

/-- Why a file operation failed. -/
inductive IoCause where
  /-- The file holds no UTF-8 text. -/
  | notUtf8
  /-- The path has a NUL character in it. -/
  | nulInPath
  /-- The file system refused the operation. -/
  | refused
  deriving DecidableEq, Repr

/-- The wording of a cause that the file system does not word itself. -/
def IoCause.message? : IoCause → Option String
  | notUtf8 => some "stream did not contain valid UTF-8"
  | nulInPath => some "file name contained an unexpected NUL byte"
  | refused => none

inductive Failure where
  | invalidJson (fault : Jsonc.Fault)
  | settingsMalformed
  | configNotFound
  | configMissing (path : String)
  | template (fault : Template.Fault)
  | io (cause : IoCause)
  | configUnreadable (cause : IoCause)
  deriving Repr

namespace Failure

/-- The wording of an unreadable or unwritable file. -/
def ioMessage (cause : IoCause) : String :=
  cause.message?.getD "the file system refused the operation"

/-- The wording of a failure. -/
def message : Failure → String
  | invalidJson f =>
    s!"failed to parse Waybar config at line {f.position.line}, column {f.position.column}: " ++
      f.reason.message
  | settingsMalformed => "failed to parse config file"
  | configNotFound => "could not find a Waybar config file"
  | configMissing path => s!"config file not found: `{path}`"
  | template f => s!"template rendering failed for `{f.template}`"
  | io cause | configUnreadable cause => ioMessage cause

/-- The code of a failure. -/
def code? : Failure → Option String
  | invalidJson _ => some "wayconv::invalid_json"
  | settingsMalformed => some "wayconv::config_parse"
  | configNotFound => some "wayconv::config_not_found"
  | configMissing _ => some "wayconv::config_missing"
  | template _ => some "wayconv::template_render"
  | io _ => some "wayconv::io_error"
  | configUnreadable _ => none

/-- Advice on a failure. -/
def help? : Failure → Option String
  | invalidJson f =>
    some (s!"problematic content near position {f.offset}:\n" ++ String.ofList f.context)
  | settingsMalformed =>
    some "check that wayconv.toml is valid TOML with only known top-level keys"
  | configNotFound => some "pass the path explicitly: `wayconv /path/to/waybar/config`"
  | _ => none

end Failure

end BarBridge
