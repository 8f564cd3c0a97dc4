/-!
# Help texts of the command
-/

namespace GossipGames
namespace CommandLine

def usage : String :=
  "Usage: gossip-gen [OPTIONS] <COUNT>\n"

def about : String :=
  "Generate gossip benchmark instances for concurrent game solvers\n\n" ++ usage ++ "\n"

def summaryText : String :=
  about ++
  "Arguments:\n" ++
  "  <COUNT>  Number of agents (positive integer)\n" ++
  "\n" ++
  "Options:\n" ++
  "  -s, --style <STYLE>    Output style (overrides the config file) " ++
    "[possible values: compact, pretty, minified]\n" ++
  "  -c, --config <CONFIG>  Configuration file (TOML format)\n" ++
  "  -l, --lint             Check the generated instance and report warnings on stderr\n" ++
  "      --strict           Like --lint, but exit with an error and no output when warnings exist\n" ++
  "  -h, --help             Print help (see more with '--help')\n" ++
  "  -V, --version          Print version\n"

def helpText : String :=
  about ++
  "Arguments:\n" ++
  "  <COUNT>\n" ++
  "          Number of agents (positive integer)\n" ++
  "\n" ++
  "Options:\n" ++
  "  -s, --style <STYLE>\n" ++
  "          Output style (overrides the config file)\n" ++
  "\n" ++
  "          Possible values:\n" ++
  "          - compact:  Single line with `\", \"` and `\": \"` separators\n" ++
  "          - pretty:   Indented with two spaces\n" ++
  "          - minified: No whitespace at all\n" ++
  "\n" ++
  "  -c, --config <CONFIG>\n" ++
  "          Configuration file (TOML format)\n" ++
  "\n" ++
  "  -l, --lint\n" ++
  "          Check the generated instance and report warnings on stderr\n" ++
  "\n" ++
  "      --strict\n" ++
  "          Like --lint, but exit with an error and no output when warnings exist\n" ++
  "\n" ++
  "  -h, --help\n" ++
  "          Print help (see a summary with '-h')\n" ++
  "\n" ++
  "  -V, --version\n" ++
  "          Print version\n"

def versionText : String :=
  "gossip-gen 0.1.0\n"

end CommandLine
end GossipGames
