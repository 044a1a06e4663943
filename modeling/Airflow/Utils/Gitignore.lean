import Airflow.Utils.File

/-!
# The rules of `.gitignore`

Which files of a directory are left when ignore files are read as `.gitignore` files are: what a
pattern matches is an argument, and the last pattern that matches a path decides about it. With
this, what is assumed of the compiled patterns, and when dropping repeated rules does not tell.
-/

namespace Airflow.Utils.File

/-! ## Paths of a directory -/

def Dir.subdir (dir : Dir) (name : String) : Option Dir := dir.dirs.lookup name

/-- A path of a file below the directory. -/
def Dir.hasFile : Dir → Path → Prop
  | _, [] => False
  | dir, [name] => name ∈ dir.files.map Prod.fst
  | dir, name :: rest => ∃ sub ∈ dir.subdir name, sub.hasFile rest

/-- A file that may be yielded: an ignore file is none. -/
def Dir.IsCandidate (ignoreFileName : String) (dir : Dir) (path : Path) : Prop :=
  dir.hasFile path ∧ path.getLast? ≠ some ignoreFileName

/-! ## Patterns -/

/-- The patterns of the ignore file of a directory. -/
def Dir.patterns (ignoreFileName : String) (dir : Dir) : List String :=
  ((dir.files.lookup ignoreFileName).map patternsOf).getD []

/-- `!pattern`. -/
def isNegation (pattern : String) : Bool := pattern.toList.head? == some '!'

/-- The patterns that bear on a path, outer files before inner ones and each file from top to
bottom, with the path as it is below the file's directory. -/
def patternsFor (ignoreFileName : String) : Dir → Path → List (String × Path)
  | _, [] => []
  | dir, name :: rest => (dir.patterns ignoreFileName).map (·, name :: rest) ++
    ((dir.subdir name).map (patternsFor ignoreFileName · rest)).getD []

/-- The last pattern that matches the path is not a negation. `matched` says whether a pattern
matches a path below its file's directory, which may be a directory. -/
def Excluded (matched : String → Path → Bool → Bool) (ignoreFileName : String) (base : Dir)
    (path : Path) (isDir : Bool) : Prop :=
  ∃ p ∈ ((patternsFor ignoreFileName base path).filter fun p => matched p.1 p.2 isDir).getLast?,
    isNegation p.1 = false

/-- Something holds of a file and of each directory above it, below the base. -/
def OnPrefixes (P : Path → Bool → Prop) (file : Path) : Prop :=
  ∀ n < file.length, P (file.take (n + 1)) (decide (n + 1 < file.length))

/-- Something holds of a file or of a directory above it, below the base. -/
def OnSomePrefix (P : Path → Bool → Prop) (file : Path) : Prop :=
  ∃ n < file.length, P (file.take (n + 1)) (decide (n + 1 < file.length))

/-- Neither the file nor a directory above it is excluded. -/
def Kept (matched : String → Path → Bool → Bool) (ignoreFileName : String) (base : Dir)
    (file : Path) : Prop :=
  OnPrefixes (fun path isDir => ¬Excluded matched ignoreFileName base path isDir) file

/-- **The search follows the rules**: it returns, and what it yields are the files that are kept. -/
def FollowsGitignore (git : GitWildMatchPattern) (matched : String → Path → Bool → Bool)
    (baseDirPath ignoreFileName : String) (base : Dir) : Prop :=
  ∃ found, findPathFromDirectory git baseDirPath ignoreFileName base = .ok found ∧
    ∀ path, path ∈ found ↔
      base.IsCandidate ignoreFileName path ∧ Kept matched ignoreFileName base path

/-! ## What is assumed of the compiled patterns -/

/-- The compiled pattern matches what the pattern of a `.gitignore` file matches: of a pattern with
a separator at the beginning or in the middle the path below the file's directory, of any other the
name at any level. A pattern that is compiled to nothing, and `/`, match nothing. -/
structure MatchesLikeGit (git : GitWildMatchPattern) (matched : String → Path → Bool → Bool) :
    Prop where
  relative : ∀ pattern rel isDir, isRelative pattern = true →
    git.regexMatch pattern (relText pattern rel isDir) = matched pattern rel isDir
  name : ∀ pattern dirs name isDir, isRelative pattern = false →
    git.regexMatch pattern (relText pattern [name] isDir) = matched pattern (dirs ++ [name]) isDir
  negation : ∀ pattern included, git.included pattern = some included →
    included = !isNegation pattern
  blank : ∀ pattern rel isDir, git.included pattern = none → matched pattern rel isDir = false
  slash : ∀ pattern rel isDir, isSlash pattern = true → matched pattern rel isDir = false

/-! ## Repeated rules -/

section
variable (git : GitWildMatchPattern) (ignoreFileName : String)

/-- The rules that bear on a path, repeats included, in the order of the patterns. -/
def rulesFor : Path → Dir → Path → List GlobIgnoreRule
  | _, _, [] => []
  | root, dir, name :: rest =>
    (dir.patterns ignoreFileName).filterMap (compile git · root) ++
      ((dir.subdir name).map (rulesFor (root ++ [name]) · rest)).getD []

/-- The rules that apply to a path. -/
def appliedRules (base : Dir) (path : Path) (isDir : Bool) : List GlobIgnoreRule :=
  (rulesFor git ignoreFileName [] base path).filter (·.applies git path isDir)

/-- A rule applies to the path that is no negation, and every rule that applies came for the first
time no later than it did. -/
def ExcludedAtFirst (base : Dir) (path : Path) (isDir : Bool) : Prop :=
  ∃ rule ∈ appliedRules git ignoreFileName base path isDir, rule.included = some true ∧
    ∀ rule' ∈ appliedRules git ignoreFileName base path isDir,
      (appliedRules git ignoreFileName base path isDir).idxOf rule' ≤
        (appliedRules git ignoreFileName base path isDir).idxOf rule

/-- Of the rules that apply to the path, none of another kind than the last came for the first time
after all of the last one's kind had come. -/
def NotOvertaken (base : Dir) (path : Path) (isDir : Bool) : Prop :=
  ¬Overtaken GlobIgnoreRule.included (appliedRules git ignoreFileName base path isDir)

end

end Airflow.Utils.File
