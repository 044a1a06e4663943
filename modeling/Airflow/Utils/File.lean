import Airflow.Lib.Repeats
import Mathlib.Data.List.DropRight
import Mathlib.Data.List.Basic

/-!
# `.airflowignore` files with globs

`_GlobIgnoreRule` and `_find_path_from_directory` of `utils/file.py`, on a directory without
symbolic links. A path is the list of names below the base directory. What `GitWildMatchPattern`
makes of a pattern is an argument.
-/

namespace Airflow.Utils.File

/-! ## Directories -/

abbrev Path := List String

/-- A directory: its files, by name with their text, and its subdirectories by name. -/
inductive Dir where
  | mk (files : List (String × String)) (dirs : List (String × Dir))

def Dir.files : Dir → List (String × String)
  | .mk files _ => files

def Dir.dirs : Dir → List (String × Dir)
  | .mk _ dirs => dirs

mutual

/-- The subdirectories of every directory have different names. -/
def Dir.NamesDistinct : Dir → Prop
  | .mk _ dirs => (dirs.map Prod.fst).Nodup ∧ AllNamesDistinct dirs

def AllNamesDistinct : List (String × Dir) → Prop
  | [] => True
  | (_, dir) :: dirs => dir.NamesDistinct ∧ AllNamesDistinct dirs

end

/-! ## Rules -/

/-- What `GitWildMatchPattern(pattern)` has: whether what it matches is excluded (`include`), which
is `none` for a comment or a blank, and whether its `regex` matches a text. -/
structure GitWildMatchPattern where
  included : String → Option Bool
  regexMatch : String → String → Bool

/-- `_GlobIgnoreRule`. Its `pattern` is the regular expression of `rawPattern`. -/
structure GlobIgnoreRule where
  rawPattern : String
  included : Option Bool
  relativeTo : Option Path
  deriving DecidableEq

/-- `c.isspace()`. -/
def isSpace (c : Char) : Bool :=
  let n := c.toNat
  (9 ≤ n && n ≤ 13) || (28 ≤ n && n ≤ 32) || n == 133 || n == 160 || n == 5760 ||
    (8192 ≤ n && n ≤ 8202) || n == 8232 || n == 8233 || n == 8239 || n == 8287 || n == 12288

/-- `pattern.strip() == "/"`. -/
def isSlash (pattern : String) : Bool :=
  (pattern.toList.dropWhile isSpace).rdropWhile isSpace == ['/']

/-- `pattern.startswith("/") or "/" in pattern.rstrip("/")`. -/
def isRelative (pattern : String) : Bool :=
  pattern.toList.head? == some '/' || (pattern.toList.rdropWhile (· == '/')).contains '/'

variable (git : GitWildMatchPattern)

/-- `_GlobIgnoreRule.compile`, of a pattern of a file in `parent`. -/
def compile (pattern : String) (parent : Path) : Option GlobIgnoreRule :=
  if isSlash pattern then none
  else some {
    rawPattern := pattern
    included := git.included pattern
    relativeTo := if isRelative pattern then some parent else none }

/-- The text of a relative path, with a slash after a directory for a pattern that ends in one. -/
def relText (rawPattern : String) (rel : Path) (isDir : Bool) : String :=
  "/".intercalate rel ++ if rawPattern.toList.getLast? == some '/' && isDir then "/" else ""

/-- The path, or its name, that a rule is matched against. -/
def GlobIgnoreRule.relPath (rule : GlobIgnoreRule) (path : Path) (isDir : Bool) : String :=
  match rule.relativeTo with
  | some dir => relText rule.rawPattern (path.drop dir.length) isDir
  | none => relText rule.rawPattern (path.drop (path.length - 1)) isDir

/-- `rule.include is not None and rule.pattern.match(rel_path) is not None`. -/
def GlobIgnoreRule.applies (rule : GlobIgnoreRule) (path : Path) (isDir : Bool) : Bool :=
  rule.included.isSome && git.regexMatch rule.rawPattern (rule.relPath path isDir)

/-- `_GlobIgnoreRule.match`. -/
def matchRules (path : Path) (isDir : Bool) (rules : List GlobIgnoreRule) : Bool :=
  rules.foldl (fun matched rule =>
    if rule.applies git path isDir then rule.included.getD matched else matched) false

/-! ## `_find_path_from_directory` -/

/-- `\s` of `re2`. -/
def isReSpace (c : Char) : Bool := c == '\t' || c == '\n' || c == '\x0c' || c == '\r' || c == ' '

/-- `re2.sub(r"\s*#.*", "", line)`. -/
def removeComment (line : List Char) : List Char :=
  if '#' ∈ line then (line.takeWhile (· ≠ '#')).rdropWhile isReSpace else line

/-- The lines of an ignore file that are left without their comments. -/
def patternsOf (text : String) : List String :=
  (((text.toList.splitOn '\n').map removeComment).filter (!·.isEmpty)).map String.ofList

/-- What the code keeps while it walks. -/
structure Walk where
  patternsByDir : Dict Path (List GlobIgnoreRule) := {}
  found : List Path := []

/-- `RuntimeError`. -/
structure RuntimeError where
  message : String

section
variable (baseDirPath ignoreFileName : String)

/-- The rules of a directory: those inherited, then those of its ignore file. -/
def rulesOf (root : Path) (files : List (String × String)) (patterns : List GlobIgnoreRule) :
    List GlobIgnoreRule :=
  match files.lookup ignoreFileName with
  | none => patterns
  | some text => firsts (patterns ++ (patternsOf text).filterMap (compile git · root))

/-- The loop that hands the rules to the subdirectories that are walked. -/
def announce (root : Path) (patterns : List GlobIgnoreRule) :
    List (String × Dir) → Walk → Except RuntimeError Walk
  | [], walk => return walk
  | (sd, _) :: dirs, walk =>
    let dirpath := root ++ [sd]
    let text := "/".intercalate (baseDirPath :: dirpath)
    if matchRules git dirpath true patterns then announce root patterns dirs walk
    else if (walk.patternsByDir.get? dirpath).isSome then
      throw ⟨s!"Detected recursive loop when walking DAG directory {baseDirPath}: {text} has " ++
        "appeared more than once."⟩
    else
      announce root patterns dirs
        { walk with patternsByDir := walk.patternsByDir.set dirpath patterns }

/-- The files of a directory that are yielded. -/
def keptFiles (root : Path) (files : List (String × String)) (patterns : List GlobIgnoreRule) :
    List Path :=
  ((files.map Prod.fst).filter fun file =>
    file != ignoreFileName && !matchRules git (root ++ [file]) false patterns).map (root ++ [·])

mutual

/-- What the loop over `os.walk` does from `root` on. -/
def walkDir (root : Path) : Dir → Walk → Except RuntimeError Walk
  | .mk files dirs, walk => do
    let patterns := rulesOf git ignoreFileName root files
      ((walk.patternsByDir.get? root).getD [])
    let walk ← announce git baseDirPath root patterns dirs walk
    let walk := { walk with
      found := walk.found ++ keptFiles git ignoreFileName root files patterns }
    walkDirs root patterns dirs walk

/-- The subdirectories that are left, one after the other. -/
def walkDirs (root : Path) (patterns : List GlobIgnoreRule) :
    List (String × Dir) → Walk → Except RuntimeError Walk
  | [], walk => return walk
  | (sd, dir) :: dirs, walk => do
    let walk ← if matchRules git (root ++ [sd]) true patterns then pure walk
      else walkDir (root ++ [sd]) dir walk
    walkDirs root patterns dirs walk

end

/-- `_find_path_from_directory`, with the paths in the order in which they are yielded. -/
def findPathFromDirectory (base : Dir) : Except RuntimeError (List Path) := do
  let walk ← walkDir git baseDirPath ignoreFileName [] base {}
  return walk.found

end

end Airflow.Utils.File
