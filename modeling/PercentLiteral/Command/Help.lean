/-
The texts that describe the command line.
-/
import PercentLiteral.Text.Basic

namespace PercentLiteral.Command

/-- the lines that say how the program is called -/
def usageLines : List String := [
  "usage: percentq [-h] [-m \x7bq,qq,w,ww\x7d] [-e VAR=VAL] [-E] [--strict] [--python]",
  "                [--evaluator MODULE:ATTR] [-o FILE] [--json] [--json-logs]",
  "                [FILE]"]

/-- the lines of the description below them -/
def descriptionLines : List String := [
  "",
  "percentq – percent-literal style template renderer",
  "Reads a template from FILE (or stdin) and prints it rendered in one of",
  "the q / qq / w / ww modes.",
  "",
  "options:",
  "  -h, --help            show this help message and exit",
  "",
  "Input & mode:",
  "  FILE                  Template file to render. '-' or omitted reads standard input.",
  "  -m \x7bq,qq,w,ww\x7d, --mode \x7bq,qq,w,ww\x7d",
  "                        q  : raw string, returned unchanged",
  "                        qq : escapes decoded, #\x7b...\x7d interpolated (default)",
  "                        w  : raw word list, split on unescaped whitespace",
  "                        ww : word list with escapes decoded and #\x7b...\x7d interpolated",
  "",
  "Interpolation:",
  "  -e VAR=VAL, --env VAR=VAL",
  "                        Define a variable available to interpolations. Repeatable.",
  "  -E, --os-env          Expose the process environment as variables (-e values win).",
  "  --strict              Fail on interpolation of an undefined variable instead of rendering ''.",
  "  --python              Evaluate #\x7b...\x7d as Python expressions. Variables become the namespace;",
  "                        strings render as-is, other values with repr().",
  "  --evaluator MODULE:ATTR",
  "                        Custom evaluator: a callable (str) -> str, or a class instantiated",
  "                        without arguments. Defaults to $PERCENTQ_EVALUATOR.",
  "",
  "Output:",
  "  -o FILE, --output FILE",
  "                        Write the result to FILE instead of standard output.",
  "  --json                Emit the result as JSON (an array of strings in w/ww modes).",
  "",
  "Miscellaneous:",
  "  --json-logs           Emit log records as JSON lines on stderr (also PERCENTQ_JSON_LOGS=1)."]

/-- lines, each with its end -/
def lines (ls : List String) : Text := ls.flatMap fun l => text l ++ [.newline]

/-- how the program is called -/
def usage : Text := lines usageLines

/-- the whole description -/
def help : Text := lines (usageLines ++ descriptionLines)

end PercentLiteral.Command
