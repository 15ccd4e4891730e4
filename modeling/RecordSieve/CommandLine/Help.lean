import RecordSieve.CommandLine.Parsing
/-!
# RecordSieve.CommandLine.Help

What the program says about itself, and about a command line it does not take.
-/

namespace RecordSieve
namespace CommandLine

/-- The name and version of the program. -/
def versionText : String := "aql 0.1.0"

/-- What an option means. -/
def Key.summary : Key → String
  | input => "input file (.json, .jsonl, .geojson), or - for stdin"
  | inputFormat => "input format: json, jsonl or geojson (by default as the extension says)"
  | output => "output file (.jsonl, .json, .geojson), or - for stdout, the default"
  | outputFormat => "output format: jsonl, json or geojson (by default as the extension says)"
  | clause => "WHERE clause to filter by"
  | filters => "YAML file of named filters"
  | name => "filter to use from that file"
  | access => "where records keep their fields: flat, attributes or properties"
  | mark => "write every record with a visibility flag instead of filtering"
  | markField => "name of the flag, by default visible"
  | strict => "fail if any record cannot be evaluated"
  | threads => "number of threads"
  | verbose => "report what is done"
  | help => "print this text"
  | version => "print the version"

/-- The line of the help text for an option. -/
def Key.helpLine (k : Key) : String :=
  let letter := match k.short? with
    | some c => "-" ++ c.toString ++ ", "
    | none => "    "
  "  " ++ letter ++ "--" ++ k.long ++ (if k.takesValue then " <VALUE>" else "") ++
    "  " ++ k.summary

/-- The help text. -/
def helpText : String :=
  "Filter JSON and GeoJSON records with WHERE clauses\n\n" ++
    "Usage: aql [OPTIONS] --input <INPUT>\n\nOptions:\n" ++
    "\n".intercalate (Key.all.map Key.helpLine)

/-- What is wrong with a command line. -/
def UsageError.message : UsageError → String
  | missingInput => "the argument --input <VALUE> is required"
  | unknownArgument => "unexpected argument"
  | invalidValue => "an option has no value, or none that is possible"
  | invalidNumber => "the value of --threads is no number"
  | repeated => "an option is given twice"
  | unexpectedValue => "an option that takes no value is given one"
  | help => helpText
  | version => versionText

end CommandLine
end RecordSieve
