/-!
The texts that the program prints about itself.
-/

namespace Scaffold.Console

/-- The name and version of the program. -/
def versionText : String := "nest-modgen 0.1.0"

/-- How the program is called. -/
def callText : String := "Usage: nest-modgen [OPTIONS] [MODEL]"

/-- The lines of the help text. -/
def helpLines : List String :=
  ["Generate NestJS modules from Prisma models",
    "",
    callText,
    "",
    "Arguments:",
    "  [MODEL]  Model to generate a module for (case-insensitive)",
    "",
    "Options:",
    "  -l, --list                       List all models in the schema",
    "      --json                       Print the model list as JSON",
    "      --schema <SCHEMA>            Schema file (overrides config)",
    "      --modules-dir <MODULES_DIR>  Modules root directory (overrides config)",
    "      --ext <EXT>                  Extension of generated files (overrides config)",
    "  -c, --config <CONFIG>            Configuration file path",
    "      --dry-run                    Preview generated files without writing them",
    "      --init                       Write a default configuration file",
    "      --force                      Overwrite an existing configuration file",
    "  -v, --verbose                    Enable debug logging",
    "  -h, --help                       Print help",
    "  -V, --version                    Print version",
    "",
    "Examples:",
    "  nest-modgen Product",
    "  nest-modgen User --dry-run",
    "  nest-modgen Product --ext mts",
    "  nest-modgen --list",
    "  nest-modgen --list --json"]

/-- The help text. -/
def helpText : String :=
  String.join (helpLines.map fun line => line ++ "\n")

end Scaffold.Console
