import ClauseWeave.Command.Options

namespace ClauseWeave.Command

def helpText : String :=
  "Compose parameterized SQL from filter lists and query templates

Usage: sqlcomposer [OPTIONS] <COMMAND>

Commands:
  render   Render a subject of a composition document into SQL
  inspect  Show the subjects, tokens, pipelines and settings of a document
  help     Print this message

Options of every command:
  -d, --dialect <DIALECT>  SQL dialect: sqlite, mysql, postgres or duckdb
      --max-passes <N>     Maximum number of template expansion passes
      --limit <N>          Page size of the %limit token
      --offset <N>         Row offset of the %limit token
      --doc <PATH>         Path to the composition document

Options of render:
  -s, --subject <KEY>      Subject key to render
  -f, --filters <JSON>     Filters as a JSON array
      --connective <WORD>  Connective joining the filters: and, or
      --order-by <TERM>    Ordering term, repeatable: name or name:desc
  -t, --token <NAME=TEXT>  Extra text token, repeatable
      --named              Print the query with :name markers instead of binding it"

def versionText : String := "sqlcomposer 0.1.0"

def UsageFault.message : UsageFault → String
  | refusedValue => "an option does not accept its value"
  | missingValue => "an option lacks its value"
  | unexpectedValue => "an option that takes no value is given one"
  | unknownArgument => "an argument is not known"
  | repeatedOption => "an option is given twice"
  | unknownCommand => "the command is not known"
  | missingCommand => "a command is required"
  | missingOption => "a required option is missing"
  | nothingGiven => helpText
  | help => helpText
  | version => versionText

def UsageFault.isAnswer (f : UsageFault) : Bool := f = .help || f = .version

end ClauseWeave.Command
