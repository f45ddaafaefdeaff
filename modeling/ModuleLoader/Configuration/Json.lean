import ModuleLoader.Configuration.Basic
import ModuleLoader.Json.Value

/-!
# Configurations in JSON

A configuration is an object with a field for each choice, or an array of the choices in order.
Missing choices are the default ones.
-/

set_option autoImplicit false

namespace ModuleLoader

/-- A host by its exact name, which may also be the one key of an object that holds a null. -/
def Host.ofJson? : JsonValue → Option Host
  | .string (some name) => Host.named? name
  | .object [(some name, .null)] => Host.named? name
  | _ => none

namespace Configuration

/-- The fields of a configuration, in order. -/
def fieldNames : List String :=
  ["host", "base", "force_async", "debug", "fetch_timeout_secs", "max_concurrency",
    "compat_aliases", "source_map_suffix"]

/-- The configuration a JSON value stands for. -/
def ofJsonValue? (v : JsonValue) : Option Configuration := do
  match ← v.fields? fieldNames with
  | [host, base, forceAsync, debug, fetchTimeout, maxConcurrency, aliases, sourceMapSuffix] =>
    return {
      host := ← JsonValue.fieldOr? Host.ofJson? default.host host
      base := ← JsonValue.fieldOr? JsonValue.text? default.base base
      forceAsync := ← JsonValue.fieldOr? JsonValue.boolean? default.forceAsync forceAsync
      debug := ← JsonValue.fieldOr? JsonValue.boolean? default.debug debug
      fetchTimeout := ← JsonValue.fieldOr? JsonValue.word? default.fetchTimeout fetchTimeout
      maxConcurrency := ← JsonValue.fieldOr? JsonValue.word? default.maxConcurrency maxConcurrency
      aliases := ← JsonValue.fieldOr? (JsonValue.listOf? JsonValue.text?) default.aliases aliases
      sourceMapSuffix := ← JsonValue.fieldOr? JsonValue.text? default.sourceMapSuffix sourceMapSuffix }
  | _ => none

/-- The configuration that a text in JSON describes. -/
def ofJson? (text : String) : Option Configuration := (JsonValue.parse? text).bind ofJsonValue?

end Configuration

end ModuleLoader
