import CacheRouting.Command.Arguments

/-!
# Help

The text of the answer to each request for help.
-/

namespace CacheRouting

namespace Command

def Verb.about : Verb → String
  | run => "Run the scheduler until interrupted"
  | route => "Print the preference-ordered hosts for each key as JSON"
  | divide => "Print how keys split into per-request groups as JSON"
  | init => "Print a starter memroute.toml"

def ofLines (lines : List String) : String :=
  String.join (lines.map (· ++ "\n"))

def keysHelp (verb : Verb) : String :=
  ofLines [verb.about, "", "Usage: memrouted " ++ verb.name ++ " [OPTIONS] <KEYS>...", "",
    "Arguments:", "  <KEYS>...  ", "", "Options:",
    "      --config <CONFIG>  [default: memroute.toml]",
    "  -h, --help             Print help"]

def Topic.text : Topic → String
  | program =>
      ofLines ["memroute key routing daemon", "", "Usage: memrouted <COMMAND>", "", "Commands:",
        "  run     " ++ Verb.run.about,
        "  route   " ++ Verb.route.about,
        "  divide  " ++ Verb.divide.about,
        "  init    " ++ Verb.init.about,
        "  help    Print this message or the help of the given subcommand(s)", "",
        "Options:", "  -h, --help  Print help"]
  | verb .run =>
      ofLines [Verb.run.about, "", "Usage: memrouted run [OPTIONS]", "", "Options:",
        "      --config <CONFIG>                  Path to memroute.toml [default: memroute.toml]",
        "      --stats-interval <STATS_INTERVAL>  Stats logging interval in seconds [default: 60]",
        "  -h, --help                             Print help"]
  | verb .route => keysHelp .route
  | verb .divide => keysHelp .divide
  | verb .init =>
      ofLines [Verb.init.about, "", "Usage: memrouted init [OPTIONS]", "", "Options:",
        "      --kind <KIND>  Scheduler kind: mod, consistent, manual or auto [default: auto]",
        "  -h, --help         Print help"]
  | help =>
      ofLines ["Print this message or the help of the given subcommand(s)", "",
        "Usage: memrouted help [COMMAND]...", "", "Arguments:",
        "  [COMMAND]...  Print help for the subcommand(s)"]

end Command

end CacheRouting
