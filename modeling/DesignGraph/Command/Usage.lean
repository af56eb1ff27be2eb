import DesignGraph.Text.Quoted

/-! # How the command is used

The options of the command line, the lines that tell how it is used, and what can be wrong with a command
line (`UsageError`). -/

namespace DesignGraph.Command

/-- The name of the command. -/
def name : String := "ontogen-vhdl"

/-- An option of the command line. -/
inductive Switch where
  | help
  | uid
  | label
  | typeUid
  | recursive
  | config
  deriving DecidableEq, Repr

namespace Switch

/-- How the option is written in full. -/
def spelling : Switch → String
  | help => "--help"
  | uid => "--uid"
  | label => "--label"
  | typeUid => "--type-uid"
  | recursive => "--recursive"
  | config => "--config"

/-- All options, in the order of their declaration. -/
def all : List Switch := [help, uid, label, typeUid, recursive, config]

/-- Whether the option is followed by a value. -/
def takesValue : Switch → Bool
  | help => false
  | recursive => false
  | _ => true

/-- The option in messages. -/
def display : Switch → String
  | help => "-h/--help"
  | s => s.spelling

end Switch

/-- The two files of the command line, the model to read and the model to write. -/
def fileNames : List String := ["<yaml-file-in>", "<yaml-file-out>"]

/-- What is wrong with a command line. -/
inductive UsageError where
  /-- Files are not named. -/
  | required (names : List String)
  /-- Words are left over. -/
  | unrecognized (words : List String)
  /-- An option lacks its value. -/
  | valueExpected (option : Switch)
  /-- An option without a value is given one. -/
  | valueIgnored (option : Switch) (value : String)
  /-- The beginning of more than one option. -/
  | ambiguous (word : String) (options : List Switch)
  deriving DecidableEq, Repr

/-- The wording of an error. -/
def UsageError.message : UsageError → String
  | required names => "the following arguments are required: " ++ ", ".intercalate names
  | unrecognized words => "unrecognized arguments: " ++ " ".intercalate words
  | valueExpected option => "argument " ++ option.display ++ ": expected one argument"
  | valueIgnored option value =>
    "argument " ++ option.display ++ ": ignored explicit argument " ++ Text.quoted value
  | ambiguous word options =>
    "ambiguous option: " ++ word ++ " could match " ++ ", ".intercalate (options.map (·.spelling))

/-- How the command is used. -/
def usage : String :=
  "usage: ontogen-vhdl [-h] [--uid UID] [--label LABEL] [--type-uid TYPE_UID]\n" ++
  "                    [--recursive] [--config CONFIG]\n" ++
  "                    <yaml-file-in> <yaml-file-out>\n"

/-- How the command is used, with what each word means. -/
def help : String :=
  usage ++ "\n" ++
  "Generate VHDL entities for algorithms of a software ontology.\n" ++
  "\n" ++
  "positional arguments:\n" ++
  "  <yaml-file-in>       Model to read\n" ++
  "  <yaml-file-out>      Model to write\n" ++
  "\n" ++
  "options:\n" ++
  "  -h, --help           show this help message and exit\n" ++
  "  --uid UID            Specify the algorithm to be used to generate code by\n" ++
  "                       UID\n" ++
  "  --label LABEL        Specify the algorithm(s) to be used to generate code by\n" ++
  "                       label\n" ++
  "  --type-uid TYPE_UID  Specify the datatype class which hosts compatible types\n" ++
  "  --recursive          Also generate entities for all algorithms used as parts\n" ++
  "  --config CONFIG      YAML configuration file\n" ++
  "\n" ++
  "Example:\n" ++
  "  ontogen-vhdl --label=MyAlgorithm initial_model.yml new_model.yml\n"

end DesignGraph.Command
