/-!
# Help texts

What the command line says about itself when asked.
-/

namespace TaggedStack.Cli

/-- What help may be asked about. -/
inductive Topic
  | program
  | run
  | demo
  | fuzz
  deriving DecidableEq, Repr

/-- Lines of text, each ended by a line feed. -/
def unlines (lines : List String) : String := String.join (lines.map (· ++ "\n"))

/-- The program's name and version. -/
def versionText : String := unlines ["wordvm 0.1.0"]

/-- The help text on a topic. -/
def Topic.text : Topic → String
  | program => unlines [
      "usage: wordvm [-h] [--version] [--debug] [--quiet] [--mem-size MEM_SIZE]",
      "              [--stack-limit STACK_LIMIT] [--data-base DATA_BASE]",
      "              \x7brun,demo,fuzz\x7d ...",
      "",
      "WordVM stack machine",
      "",
      "positional arguments:",
      "  \x7brun,demo,fuzz\x7d",
      "    run                 Run a program file",
      "    demo                Run a bundled program",
      "    fuzz                Fuzz the machine",
      "",
      "options:",
      "  -h, --help            show this help message and exit",
      "  --version             show program's version number and exit",
      "  --debug               Trace every executed instruction",
      "  --quiet, -q           Only log errors",
      "  --mem-size MEM_SIZE   Total memory in words (default: 150)",
      "  --stack-limit STACK_LIMIT",
      "                        First instruction address (default: 50)",
      "  --data-base DATA_BASE",
      "                        First program data address (default: 100)"]
  | run => unlines [
      "usage: wordvm run [-h] path",
      "",
      "positional arguments:",
      "  path        Program file: big-endian words, or .hex with one word per line",
      "",
      "options:",
      "  -h, --help  show this help message and exit"]
  | demo => unlines [
      "usage: wordvm demo [-h] \x7bcountdown,hello\x7d",
      "",
      "positional arguments:",
      "  \x7bcountdown,hello\x7d  Program to run",
      "",
      "options:",
      "  -h, --help         show this help message and exit"]
  | fuzz => unlines [
      "usage: wordvm fuzz [-h] [-n NUM_TESTS] [-s SEED]",
      "                   [-g \x7brandom,structured,expression,mixed\x7d]",
      "                   [--max-steps MAX_STEPS]",
      "",
      "options:",
      "  -h, --help            show this help message and exit",
      "  -n NUM_TESTS, --num-tests NUM_TESTS",
      "                        Number of random test cases to run (default: 1000)",
      "  -s SEED, --seed SEED  Random seed for reproducibility",
      "  -g \x7brandom,structured,expression,mixed\x7d, " ++
        "--generator \x7brandom,structured,expression,mixed\x7d",
      "                        Generator type (default: mixed)",
      "  --max-steps MAX_STEPS",
      "                        Step budget per program (default: 1000)"]

end TaggedStack.Cli
