import Litefunctions.FunctionObjects
import Litefunctions.Languages
import Litefunctions.PathTexts

/-!
# Images of compiled functions

A project repository has a workflow that builds the functions whose files a
push changed and pushes their images.  The workflows for GitHub and Gitea are
modelled here with the names that they derive from the paths of files and the
references under which they push.
-/

namespace Litefunctions

namespace Workflow

open PathText

/-- A push to the main branch of a project repository. -/
structure Push where
  /-- The base name of the repository. -/
  repo : String
  oneName : '/' ∉ repo.toList
  sha : String
  hexadecimal : ∀ char ∈ sha.toList, char ∈ "0123456789abcdef".toList
  /-- The commit before the push is known, so that the two can be compared. -/
  hasBefore : Bool
  /-- The paths that the push changed, in the order of the comparison. -/
  changed : List String
  hasFile : String → Bool

/-- The variables of a workflow: the registry, and the owner of the images,
which is `IMAGE_PREFIX` on Gitea, and the owner of the repository and the actor
on GitHub. -/
structure Env where
  registry : String
  owner : String

/-- What the workflows use and does not come with them. -/
structure Runner where
  /-- Whether the push changed a path that matches one of the patterns. -/
  pathsFilter : List String → Push → Bool
  /-- What is accepted as the reference of an image. -/
  isReference : String → Bool
  /-- The image of a file can be built. -/
  builds : String → String → Push → Bool

/-- `git diff --name-only` with patterns of one star, each given by the texts
around the star.  The list is empty when the comparison fails. -/
def Push.diff (push : Push) (patterns : List (String × String)) : List String :=
  if push.hasBefore then
    (push.changed.filter fun path =>
      patterns.any fun (before, after) => matchesStar before.toList after.toList path.toList).map
        fun path => String.ofList (quote path.toList)
  else
    []

/-- `sed 's|part||'`. -/
def remove (part line : String) : String :=
  String.ofList (removeFirst part.toList line.toList)

/-- `sed 's|\.ext$||'`. -/
def removeExt (ext line : String) : String :=
  String.ofList (removeSuffix ext.toList line.toList)

/-! ### GitHub -/

namespace GitHub

def rustFiles (push : Push) : List String :=
  (push.diff [("functions/rs/", ".rs")]).map fun line =>
    removeExt ".rs" (remove "functions/rs/" line)

def goFiles (push : Push) : List String :=
  (push.diff [("functions/go/", ".go")]).map fun line =>
    removeExt ".go" (remove "functions/go/" line)

/-- An image that is built and pushed under one reference. -/
def buildAndPush (runner : Runner) (push : Push) (language file tag : String) : List String :=
  if runner.isReference tag && runner.builds language file push then [tag] else []

def buildRust (runner : Runner) (env : Env) (push : Push) : List String :=
  if runner.pathsFilter ["functions/rs/**"] push then
    (rustFiles push).flatMap fun file =>
      buildAndPush runner push "rust" file
        s!"{env.registry}/{env.owner}/{push.repo}/runtime-rust-{file}:latest"
  else
    []

def buildGo (runner : Runner) (env : Env) (push : Push) : List String :=
  if runner.pathsFilter ["functions/go/**"] push then
    (goFiles push).flatMap fun file =>
      if push.hasFile s!"functions/go/{file}.go" then
        buildAndPush runner push "go" file
          s!"{env.registry}/{env.owner}/{push.repo}-go-{file}:{push.sha}"
      else
        []
  else
    []

end GitHub

/-! ### Gitea -/

namespace Gitea

def rustFiles (push : Push) : List String :=
  ((push.diff [("functions/rs/", ".rs"), ("functions/rust/", ".rs")]).map fun line =>
    removeExt ".rs" (remove "functions/rust/" (remove "functions/rs/" line))).filter (· ≠ "")

def goFiles (push : Push) : List String :=
  ((push.diff [("functions/go/", ".go")]).map fun line =>
    removeExt ".go" (remove "functions/go/" line)).filter (· ≠ "")

def latestTag (env : Env) (push : Push) (language file : String) : String :=
  s!"{env.registry}/{env.owner}/runtime-{language}-{push.repo}-{file}:latest"

def shaTag (env : Env) (push : Push) (language file : String) : String :=
  s!"{env.registry}/{env.owner}/runtime-{language}-{push.repo}-{file}:{push.sha}"

/-- A job that builds the first of the files, from the first of its sources that
there is, and pushes the image under two tags.  The text `null` stands for a
missing file. -/
def buildFirst (runner : Runner) (env : Env) (push : Push) (language : String)
    (patterns files : List String) (sources : String → List String) : List String :=
  if runner.pathsFilter patterns push then
    match files.head? with
    | none => []
    | some file =>
        if file = "null" then []
        else if (sources file).any push.hasFile then
          if runner.isReference (latestTag env push language file) &&
              runner.isReference (shaTag env push language file) &&
              runner.builds language file push then
            [latestTag env push language file, shaTag env push language file]
          else []
        else []
  else
    []

def buildGo (runner : Runner) (env : Env) (push : Push) : List String :=
  buildFirst runner env push "go" ["functions/go/**"] (goFiles push)
    fun file => [s!"functions/go/{file}.go"]

def buildRust (runner : Runner) (env : Env) (push : Push) : List String :=
  buildFirst runner env push "rust" ["functions/rs/**", "functions/rust/**"] (rustFiles push)
    fun file => [s!"functions/rs/{file}.rs", s!"functions/rust/{file}.rs"]

end Gitea

/-- The vendors of repositories that have a workflow. -/
inductive Vendor where
  | github
  | gitea
  deriving DecidableEq, Repr

/-- The references under which the workflow of a vendor pushes images. -/
def pushedImages (runner : Runner) (env : Env) (push : Push) : Vendor → List String
  | .github => GitHub.buildRust runner env push ++ GitHub.buildGo runner env push
  | .gitea => Gitea.buildGo runner env push ++ Gitea.buildRust runner env push

/-! ### Functions of a push -/

/-- The path at which the portal writes a function. -/
def functionPath (function : Function) : String :=
  s!"functions/{function.content.language}/{function.key.name}{Language.langExt function.content.language}"

/-- The push changed the file of a compiled function of the project. -/
structure Push.Changes (push : Push) (function : Function) : Prop where
  compiled : function.content.language = "go" ∨ function.content.language = "rust"
  project : function.content.project = push.repo
  changed : functionPath function ∈ push.changed
  present : push.hasFile (functionPath function) = true

/-- An image is pushed for every function of the push, under the reference in
its Deployment. -/
def PushesAll (runner : Runner) (cfg : Settings) (push : Push) (vendor : Vendor) : Prop :=
  ∀ function, push.Changes function →
    (newDeployment cfg function).image ∈
      pushedImages runner ⟨cfg.registry, cfg.vcsUser⟩ push vendor

/-- The files of a language that the Gitea workflow finds. -/
def Gitea.files (push : Push) (language : String) : List String :=
  if language = "go" then goFiles push else rustFiles push

/-- What pushing the images of a push takes: with GitHub it changes no compiled
function, with Gitea each function that it changes is the first one of its
language that the workflow finds, is not named `null`, has valid references and
can be built. -/
def Covered (runner : Runner) (cfg : Settings) (push : Push) : Vendor → Prop
  | .github => ∀ function, ¬ push.Changes function
  | .gitea => ∀ function, push.Changes function →
      (Gitea.files push function.content.language).head? = some function.key.name ∧
        function.key.name ≠ "null" ∧
        runner.isReference (runtimeImage cfg function) = true ∧
        runner.isReference (Gitea.shaTag ⟨cfg.registry, cfg.vcsUser⟩ push function.content.language
          function.key.name) = true ∧
        runner.builds function.content.language function.key.name push = true

/-- The filter finds a changed file below the directory of a pattern. -/
def Runner.FindsBelow (runner : Runner) : Prop :=
  ∀ (push : Push) (patterns : List String) (directory path : String),
    directory ++ "**" ∈ patterns → path ∈ push.changed → directory.toList <+: path.toList →
      runner.pathsFilter patterns push = true

end Workflow

end Litefunctions
