/-
The program's own modules, and one that writes JSON, as references find them.

An object is written down once, with its name; a module has the objects that it defines and those that it takes from
other modules of the program. A package has its modules as members, too. Names that a module has for itself or takes
from elsewhere are left out, and so are the members that every object has. Of the members of classes there are the
functions of those that read and render; a run cannot be called as an evaluator here.
-/
import PercentLiteral.Reference.Callable

namespace PercentLiteral.Reference

namespace Standard

/-- a member: a name and an object -/
abbrev Member := Text × Object Callable

/-- an object without members, by its name -/
def leaf (name : String) (n : Nature Callable) : Member := (text name, .mk n [])

/-- a function -/
def function (name : String) (c : Callable) : Member := leaf name (.function (text name) c)

/-- a function that refuses to be called with one expression -/
def refusing (name : String) (message : String) : Member :=
  function name (.fail (.saying "TypeError" (text message)))

/-- a class -/
def type (name : String) (make : Except Failure (Option Callable)) (members : List Member) : Member :=
  (text name, .mk (.class (text name) (text "type") make) members)

/-- a class whose instances cannot be called -/
def plainType (name : String) (members : List Member := []) : Member := type name (.ok none) members

/-- a class whose instances need something to be made from -/
def needyType (name message : String) : Member := type name (.error (.saying "TypeError" (text message))) []

/-- a class that only describes others -/
def protocol (name : String) : Member :=
  leaf name (.class (text name) (text "_ProtocolMeta")
    (.error (.saying "TypeError" (text "Protocols cannot be instantiated"))))

/-- a constant text -/
def constant (name value : String) : Member := leaf name (.constant (.str (text value)))

/-- a mode under its long name, with its letters and that name -/
def modeMember (m : Mode) : Member :=
  let property (name : String) (t : Text) := leaf name (.constant (.str t))
  (m.name, .mk (.mode m) [property "value" m.letters, property "name" m.name])

/-- a type of templates' parts -/
def combination (name typeName form complaint : String) : Member :=
  leaf name (.typeForm (text typeName) (text form) (.fail (.saying "TypeError" (text complaint))))

/-- the class of an error in a template -/
def errorType (name : String) : Member :=
  needyType name "TemplateError.__init__() missing 2 required positional arguments: 'snippet' and 'offset'"

/-- the objects that the program's modules define -/
def objects : List Member := [
  constant "BACKSLASH" "\\", constant "INTERP_SIGIL" "#", constant "INTERP_OPEN" "#\x7b",
  constant "BRACE_OPEN" "\x7b", constant "BRACE_CLOSE" "\x7d",
  leaf "MODE_ALIASES" (.constant (.tuple (Mode.all.map fun m => .str m.letters))), constant "DEFAULT_MODE" "qq",
  needyType "LiteralToken" "LiteralToken.__init__() missing 2 required positional arguments: 'text' and 'start'",
  needyType "EscapeToken"
    "EscapeToken.__init__() missing 3 required positional arguments: 'raw', 'value', and 'start'",
  needyType "InterpolationToken"
    "InterpolationToken.__init__() missing 2 required positional arguments: 'expression' and 'start'",
  combination "Token" "_UnionGenericAlias" "Union" "Cannot instantiate typing.Union",
  combination "Word" "_GenericAlias" "Tuple" "Type Tuple cannot be instantiated; use tuple() instead",
  (text "RenderMode", .mk (.enumeration (text "RenderMode")) (Mode.all.map modeMember)),
  protocol "EvaluatorProtocol", protocol "LoggerLikeProtocol", protocol "LoggerFactoryProtocol",
  protocol "TemplateRendererProtocol",
  plainType "SourceLocation",
  errorType "TemplateError", errorType "UnterminatedInterpolation", errorType "InvalidEscapeSequence",
  errorType "MalformedEscape",
  needyType "InterpolationEvaluationError"
    "InterpolationEvaluationError.__init__() missing 3 required positional arguments: 'expression', 'offset', and 'cause'",
  plainType "InterpolationExtractor" [
    refusing "extract" "InterpolationExtractor.extract() missing 1 required positional argument: 'pos'"],
  plainType "TemplateScanner" [
    refusing "scan" "TemplateScanner.scan() missing 2 required positional arguments: 'text' and 'mode'"],
  function "tokenize" .tokens,
  plainType "EscapeDecoder" [
    refusing "match" "EscapeDecoder.match() missing 2 required positional arguments: 'text' and 'pos'",
    refusing "decode" "EscapeDecoder.decode() missing 1 required positional argument: 'text'",
    function "encode" .encode],
  function "decode_escapes" .decode, function "encode_escapes" .encode,
  plainType "WordSplitter" [refusing "split" "WordSplitter.split() missing 1 required positional argument: 'tokens'"],
  function "stringify" .identity,
  type "MappingEvaluator" (.ok (some .lookup)) [], type "PythonEvaluator" (.ok (some (.expressions []))) [],
  plainType "TemplateRenderer" [
    refusing "render" "TemplateRenderer.render() missing 2 required positional arguments: 'text' and 'mode'",
    refusing "render_raw" "TemplateRenderer.render_raw() missing 1 required positional argument: 'text'",
    refusing "render_interpolated"
      "TemplateRenderer.render_interpolated() missing 1 required positional argument: 'text'",
    refusing "render_raw_words" "TemplateRenderer.render_raw_words() missing 1 required positional argument: 'text'",
    refusing "render_interpolated_words"
      "TemplateRenderer.render_interpolated_words() missing 1 required positional argument: 'text'"],
  function "render_raw" .identity,
  refusing "render_interpolated" "render_interpolated() missing 1 required positional argument: 'evaluator'",
  function "render_raw_words" .rawWords,
  refusing "render_interpolated_words" "render_interpolated_words() missing 1 required positional argument: 'evaluator'",
  constant "BASE_LOGGER" "percentq", plainType "JsonLogFormatter",
  refusing "setup_base_logger" "setup_base_logger() takes 0 positional arguments but 1 was given",
  function "get_logger" (.typed (text "Logger")),
  refusing "is_trace_enabled" "is_trace_enabled() takes 0 positional arguments but 1 was given",
  refusing "trace" "trace() missing 1 required positional argument: 'message'",
  plainType "DefaultLoggerFactory",
  function "load_object_from_ref" .load,
  leaf "logger" (.instance (text "Logger") none),
  plainType "UsageError", plainType "PercentQ",
  refusing "main" "main() takes 0 positional arguments but 1 was given",
  (text "__version__", .mk (.constant (.str Log.version)) []),
  refusing "renderer_factory" "renderer_factory() takes 0 positional arguments but 1 was given"]

/-- objects by their names -/
def named (names : List String) : List Member := names.filterMap fun n => objects.find? fun o => o.1 = text n

/-- a module with objects -/
def module (name : String) (names : List String) : Member :=
  (text name, .mk (.module (text name) false) (named names))

/-- a package with objects and modules, which are members under the last parts of their names -/
def package (name : String) (names : List String) (modules : List Member) : Member :=
  let below := modules.map fun m => (((Text.fields .dot m.1).getLastD []), m.2)
  (text name, .mk (.module (text name) true) (named names ++ below))

/-- the names that describe what others are made to work with -/
def protocols : List String :=
  ["EvaluatorProtocol", "LoggerFactoryProtocol", "LoggerLikeProtocol", "TemplateRendererProtocol"]

/-- the names of tokens and modes -/
def models : List String := ["EscapeToken", "InterpolationToken", "LiteralToken", "RenderMode", "Token"]

/-- the names of errors in templates -/
def errors : List String :=
  ["InterpolationEvaluationError", "InvalidEscapeSequence", "MalformedEscape", "TemplateError",
   "UnterminatedInterpolation"]

/-- the functions that render -/
def renderers : List String :=
  ["render_raw", "render_interpolated", "render_raw_words", "render_interpolated_words"]

/-- modules of interfaces -/
def interfaceModules : List Member := [
  module "percentq.core.interfaces.evaluator" ["EvaluatorProtocol"],
  module "percentq.core.interfaces.logging" ["LoggerLikeProtocol", "LoggerFactoryProtocol"],
  module "percentq.core.interfaces.render" ["RenderMode", "TemplateRendererProtocol"]]

/-- modules of what all others work with -/
def coreModules : List Member := [
  package "percentq.core.interfaces" protocols interfaceModules,
  module "percentq.core.models" (["BRACE_CLOSE", "INTERP_OPEN", "Word"] ++ models)]

/-- modules of the logger -/
def loggingModules : List Member := [
  module "percentq.logging.factory" ["LoggerLikeProtocol", "get_logger", "setup_base_logger", "DefaultLoggerFactory"],
  module "percentq.logging.helpers"
    ["BASE_LOGGER", "JsonLogFormatter", "setup_base_logger", "get_logger", "is_trace_enabled", "trace"]]

/-- modules that read -/
def parsingModules : List Member := [
  module "percentq.parsing.interpolation" ["BRACE_CLOSE", "BRACE_OPEN", "INTERP_OPEN", "InterpolationToken",
    "UnterminatedInterpolation", "InterpolationExtractor"],
  module "percentq.parsing.parser" ["DEFAULT_MODE", "MODE_ALIASES"],
  module "percentq.parsing.scanner" ["BACKSLASH", "INTERP_OPEN", "LoggerLikeProtocol", "EscapeToken", "LiteralToken",
    "RenderMode", "Token", "get_logger", "trace", "InterpolationExtractor", "EscapeDecoder", "TemplateScanner",
    "tokenize"],
  module "percentq.parsing.source" ["SourceLocation"]]

/-- modules of escapes and words -/
def processingModules : List Member := [
  module "percentq.processing.escapes" ["BACKSLASH", "INTERP_OPEN", "INTERP_SIGIL", "EscapeToken",
    "InvalidEscapeSequence", "MalformedEscape", "EscapeDecoder", "decode_escapes", "encode_escapes"],
  module "percentq.processing.words" ["LiteralToken", "Token", "Word", "WordSplitter"]]

/-- modules that render -/
def renderingModules : List Member := [
  module "percentq.rendering.evaluators" ["stringify", "MappingEvaluator", "PythonEvaluator"],
  module "percentq.rendering.renderer" (["EvaluatorProtocol", "LoggerLikeProtocol", "InterpolationEvaluationError",
    "get_logger", "trace", "TemplateScanner", "WordSplitter", "TemplateRenderer"] ++ models ++ renderers)]

/-- modules of what is left -/
def utilityModules : List Member := [module "percentq.utils.imports" ["load_object_from_ref"]]

/-- the modules right below the program's main one -/
def topModules : List Member := [
  module "percentq.cli" ["EvaluatorProtocol", "LoggerFactoryProtocol", "TemplateRendererProtocol", "RenderMode",
    "TemplateError", "DefaultLoggerFactory", "get_logger", "MappingEvaluator", "PythonEvaluator", "TemplateRenderer",
    "load_object_from_ref", "logger", "UsageError", "PercentQ", "main"],
  module "percentq.constants"
    ["BACKSLASH", "INTERP_SIGIL", "INTERP_OPEN", "BRACE_OPEN", "BRACE_CLOSE", "MODE_ALIASES", "DEFAULT_MODE"],
  package "percentq.core" ("Word" :: protocols ++ models) coreModules,
  module "percentq.errors" ("SourceLocation" :: errors),
  package "percentq.logging" [] loggingModules,
  package "percentq.parsing" [] parsingModules,
  package "percentq.processing" [] processingModules,
  package "percentq.rendering" [] renderingModules,
  package "percentq.utils" ["load_object_from_ref"] utilityModules]

/-- the program's main module -/
def main : Member :=
  package "percentq" (["__version__", "PercentQ", "renderer_factory", "decode_escapes", "encode_escapes", "tokenize",
    "TemplateRenderer", "TemplateScanner", "EscapeDecoder", "WordSplitter", "MappingEvaluator", "PythonEvaluator",
    "stringify", "EvaluatorProtocol", "LoggerLikeProtocol", "get_logger"] ++ models ++ errors ++ renderers) topModules

/-- the module that writes JSON -/
def jsonModule : Member := (text "json", .mk (.module (text "json") true) [function "dumps" .json])

end Standard

open Standard in
/-- the modules that references can name -/
def standard : Registry Callable :=
  [jsonModule, main] ++ topModules ++ coreModules ++ interfaceModules ++ loggingModules ++ parsingModules ++
    processingModules ++ renderingModules ++ utilityModules

end PercentLiteral.Reference
