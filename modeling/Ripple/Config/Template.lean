import Ripple.Json.Writer
import Ripple.Text.Basic

/-!
The configuration to start from.
-/
namespace Ripple.Config.Template

/-- The starting configuration in YAML, with its optional parts commented out. -/
def yaml : String :=
  Text.lineBlock
    ["# Impact Analyzer configuration",
      "",
      "repos:",
      "  - name: frontend",
      "    path: ./frontend",
      "    type: angular",
      "    analyzers:",
      "      - ts-morph",
      "    # include_paths:",
      "    #   - src/app",
      "    # exclude_paths:",
      "    #   - \"**/*.spec.ts\"",
      "",
      "  # - name: api",
      "  #   path: ./api",
      "  #   type: graphql-node",
      "  #   analyzers:",
      "  #     - graphql-inspector",
      "",
      "  # - name: lambdas",
      "  #   path: ./lambdas",
      "  #   type: go",
      "  #   analyzers:",
      "  #     - go-ast",
      "",
      "relations: []",
      "  # - from: api",
      "  #   to: frontend",
      "  #   via: graphql-schema",
      "  #   patterns:",
      "  #     - \"**/*.graphql\"",
      "",
      "output:",
      "  directory: ./impact-output",
      "  formats:",
      "    - json",
      "    - markdown",
      "",
      "logging:",
      "  level: INFO"]

def document : Value :=
  .record
    [("repos", .list
        [.record [("name", .text "frontend"), ("path", .text "./frontend"),
          ("type", .text "angular"), ("analyzers", .list [.text "ts-morph"])]]),
      ("relations", .list []),
      ("output", .record [("directory", .text "./impact-output"),
        ("formats", .list [.text "json", .text "markdown"])])]

/-- The text of the starting configuration: YAML where that is asked for, else JSON. -/
def text (format : String) : String :=
  if format = "yaml" then yaml else Json.render Json.pretty document ++ "\n"

/-- The name of the file for the starting configuration: JSON only where that is asked for. -/
def fileName (format : String) : String :=
  if format = "json" then "impact.config.json" else "impact.config.yaml"

end Ripple.Config.Template
