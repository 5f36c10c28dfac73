import SieveChain.CommandLine.Request

/-!
# Help

The pages of help, and the version of the program.
-/

namespace SieveChain.CommandLine

def version : String := "pipe-sieve 0.1.0\n"

def Page.lines : Page → List String
  | .program =>
    ["Prime sieve built from a chain of processes connected by pipes",
     "",
     "Usage: pipe-sieve [OPTIONS] [BOUND]",
     "",
     "Arguments:",
     "  [BOUND]  Exclusive upper bound of the candidate range (default 35).",
     "",
     "Options:",
     "      --low <N>            First candidate (default 2).",
     "  -c, --config <FILE>      TOML config file; command line values take precedence.",
     "      --backend <BACKEND>  Run stages as processes or as threads. "
       ++ "[possible values: process, thread]",
     "  -h, --help               Print help",
     "  -V, --version            Print version"]
  | .stage =>
    ["Run one pipeline stage on stdin.",
     "",
     "Usage: pipe-sieve stage [OPTIONS]",
     "",
     "Options:",
     "      --ceiling <N>  ",
     "  -h, --help         Print help"]
  | .help =>
    ["Print this message or the help of the given subcommand(s)",
     "",
     "Usage: pipe-sieve help [COMMAND]...",
     "",
     "Arguments:",
     "  [COMMAND]...  Print help for the subcommand(s)"]

def Page.text (p : Page) : String := String.join (p.lines.map (· ++ "\n"))

end SieveChain.CommandLine
