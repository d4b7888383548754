import ShellStyle.Filter

/-! What the environment says about colours and the log. For the report a forced colour goes before everything
else; without one a dumb terminal, a stream that is no terminal and `NO_COLOR` turn colours off. For help
and refusals `NO_COLOR` goes first, and a variable counts there as soon as it is not empty. How a text is
read as a filter of the log is left open, with `Filter.read` as the usual way. -/
namespace ShellStyle

structure Environment where
  get? : String → Option String
  terminal : Bool
  errorTerminal : Bool
  filter? : String → Option Filter := Filter.read

namespace Environment

def serviceNames : List String :=
  ["APPVEYOR", "BITBUCKET_DEPLOYMENT", "BITRISE_IO", "BUDDY_WORKSPACE_ID", "BUILDER_OUTPUT",
    "BUILDKITE", "CI_NAME", "CIRCLECI", "CIRRUS_CI", "CODEBUILD_SRC_DIR", "DRONE", "DSARI",
    "GERRIT_PROJECT", "GITHUB_ACTION", "GITLAB_CI", "GITLAB_DEPLOYMENT", "GO_PIPELINE_NAME",
    "HUDSON_URL", "JENKINS_URL", "MAGNUM", "NETLIFY", "NEVERCODE", "NOW_BUILDER",
    "NOW_GITHUB_DEPLOYMENT", "RENDER", "SAIL_CI", "SCREWDRIVER", "SEMAPHORE", "SHIPPABLE", "STRIDER",
    "SYSTEM_TEAMFOUNDATIONCOLLECTIONURI", "TASKCLUSTER_ROOT_URL", "TDDIUM", "TEAMCITY_VERSION",
    "TRAVIS", "WERCKER", "bamboo.buildKey"]

def names : List String :=
  ["FORCE_COLOR", "CLICOLOR_FORCE", "NO_COLOR", "TERM", "IGNORE_IS_TERMINAL", "COLORTERM",
    "TERM_PROGRAM", "CLICOLOR", "CI", "NODE", "RUST_LOG"] ++ serviceNames

def isSet (env : Environment) (name : String) : Bool := (env.get? name).isSome

def isFilled (env : Environment) (name : String) : Bool :=
  match env.get? name with
  | some value => value != ""
  | none => false

/- A number switches colours off only if it is zero, and so does `false`. -/
def forces (value : String) : Bool :=
  let digits := match value.toList with
    | '+' :: r => r
    | cs => cs
  value != "false" && (digits.isEmpty || !digits.all (· = '0'))

def forced (env : Environment) : Bool :=
  match env.get? "FORCE_COLOR" with
  | some value => forces value
  | none =>
    match env.get? "CLICOLOR_FORCE" with
    | some value => value != "0"
    | none => false

def isSetBeyondZero (env : Environment) (name : String) : Bool :=
  match env.get? name with
  | some value => value != "0"
  | none => false

def inBuildService (env : Environment) : Bool :=
  serviceNames.any env.isSet
    || (match env.get? "CI" with
      | some ci => ci == "true" || ci == "1" || ci == "woodpecker"
      | none => false)
    || (match env.get? "NODE" with
      | some node => "//heroku/node/bin/node".toList.isSuffixOf node.toList
      | none => false)

def namesTerminal (env : Environment) : Bool :=
  match env.get? "TERM" with
  | some term => term != "dumb"
  | none => false

def capable (env : Environment) : Bool :=
  env.namesTerminal || env.isSet "COLORTERM"
    || (match env.get? "TERM_PROGRAM" with
      | some program => program == "iTerm.app" || program == "Apple_Terminal"
      | none => false)
    || env.isSetBeyondZero "CLICOLOR" || env.inBuildService

def colours (env : Environment) : Bool :=
  env.forced
    || (!env.isSetBeyondZero "NO_COLOR" && env.get? "TERM" != some "dumb"
      && (env.terminal || env.isSetBeyondZero "IGNORE_IS_TERMINAL") && env.capable)

def coloursMessage (env : Environment) (terminal : Bool) : Bool :=
  !env.isFilled "NO_COLOR"
    && (env.isFilled "CLICOLOR_FORCE"
      || (env.get? "CLICOLOR" != some "0" && terminal
        && (env.namesTerminal || env.isSet "CLICOLOR" || env.isSet "CI")))

def coloursLog (env : Environment) : Bool := !env.isFilled "NO_COLOR"

/- A filter that cannot be read counts as none. -/
def logFilter (env : Environment) (verbose : Bool) : Filter :=
  match (env.get? "RUST_LOG").bind env.filter? with
  | some filter => filter
  | none => .upTo (if verbose then .debug else .warn)

end Environment

end ShellStyle
