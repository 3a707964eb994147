import CodeIndex.Path
/-!
# The environment

What a user's environment decides: where the configuration and the index are kept.
-/

namespace CodeIndex.Config

/-- A user's environment. -/
structure Environment where
  /-- The values of variables. -/
  value? : String → Option String
  /-- The home directory that the account has without a variable. -/
  accountHome? : Option String

namespace Environment

/-- The variables that count. -/
def names : List String :=
  ["HOME", "XDG_CONFIG_HOME", "XDG_CACHE_HOME", "CODEINTEL_CONFIG", "CODEINTEL_DB",
    "CODEINTEL_MAX_TASKS", "CODEINTEL_BATCH_SIZE", "CODEINTEL_WORKERS"]

/-- The user's home directory. -/
def home? (env : Environment) : Option String :=
  ((env.value? "HOME").filter (· != "")).or env.accountHome?

/-- The directory that a variable gives, which has to be absolute, or else the one at a place below
the home directory. -/
def userDirectory? (env : Environment) (name belowHome : String) : Option String :=
  ((env.value? name).filter Path.isAbsolute).or (env.home?.map (Path.join · belowHome))

/-- A path below a directory of the user, or below the working directory if there is none. -/
def below (directory : Option String) (path : String) : String :=
  Path.join (directory.getD ".") path

/-- Where the configuration is kept unless a user says otherwise. -/
def standardConfigFile (env : Environment) : String :=
  below (env.userDirectory? "XDG_CONFIG_HOME" ".config") "codeintel/config.yml"

/-- Where the configuration is kept. -/
def configFile (env : Environment) : String :=
  (env.value? "CODEINTEL_CONFIG").getD env.standardConfigFile

/-- Where the index is kept unless a user says otherwise. -/
def standardIndexFile (env : Environment) : String :=
  below (env.userDirectory? "XDG_CACHE_HOME" ".cache") "codeintel/index.sqlite"

end Environment

end CodeIndex.Config
