import ResourceAudit.Schema
import ResourceAudit.Settings

/-!
# The schema of settings
-/

namespace ResourceAudit

def CheckSettings.layout : Schema :=
  .named "CheckConfig" <| .record
    [("enabled", .optional, .described "Override preset enable/disable." (.orNull .boolean))]

namespace Settings

def layout : Schema :=
  .described
    ("`iacguard.toml` schema v1.\n\n" ++
      "This is a *user-facing* config model: it is intentionally permissive so " ++
      "forward-compat is easy.") <|
  .record
    [("schema", .optional,
        .described "Optional schema string for tooling (`iacguard.config.v1`)."
          (.orNull .string)),
      ("profile", .optional,
        .described "Preset to start from: `strict` (all built-ins on, default) or `none`."
          (.orNull .string)),
      ("parallel", .optional,
        .described "Evaluate resources on a worker pool." (.orNull .boolean)),
      ("checks", .optional,
        .described "Map of check_id -> config."
          (.defaulting (.dictionary CheckSettings.layout) (.object [])))]

def schemaText : String := (layout.document "IacguardConfigV1").pretty

end Settings

end ResourceAudit
