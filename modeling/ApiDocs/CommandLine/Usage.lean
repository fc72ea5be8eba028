import ApiDocs.CommandLine.Arguments

/-!
# Help on the command line

* `helpText`: how the program is called, and what each word means;
* `UsageFault.report`: how the program is called, and what is wrong.
-/

namespace ApiDocs.CommandLine

/-- The name under which the program speaks of itself. -/
def programName : String := "docrecon"

/-- How the program is called. -/
def usage : String :=
  "usage: " ++ programName ++ " [-h] [--config CONFIG] [--out OUT] [--dry-run] [-v]\n"
    ++ "                [files ...]\n"

/-- How the program is called, and what each word means. -/
def helpText : String :=
  usage
    ++ "\nReconcile structural and documentation records of .NET code into one canonical\nmodel.\n"
    ++ "\npositional arguments:\n"
    ++ "  files            YAML record files, one source each\n"
    ++ "\noptions:\n"
    ++ "  -h, --help       show this help message and exit\n"
    ++ "  --config CONFIG  Path to configuration file\n"
    ++ "  --out OUT        Write the merged model here (.json for JSON, otherwise\n"
    ++ "                   YAML)\n"
    ++ "  --dry-run        Load and merge without writing any output\n"
    ++ "  -v, --verbose    Enable debug logging\n"

/-- How the program is called, and what is wrong. -/
def UsageFault.report (fault : UsageFault) : String :=
  usage ++ programName ++ ": error: " ++ fault.message ++ "\n"

end ApiDocs.CommandLine
