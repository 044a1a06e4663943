import Airflow.Lib.Trim

/-!
# Names and labels of pods

`create_pod_id` and `add_pod_suffix` of
`providers/cncf/kubernetes/kubernetes_helper_functions.py`, and `make_safe_label_value` of
`providers/cncf/kubernetes/pod_generator.py`. Strings are lists of characters. What `slugify`, the
random choice and `md5` return is a value of a type that says what it looks like.
-/

namespace Airflow.Kubernetes

/-! ## Characters -/

/-- A character of `[a-zA-Z0-9]`. -/
def isAlnum (c : Char) : Bool := c.isAlphanum

/-- A character of `[a-z0-9]`. -/
def isLowerAlnum (c : Char) : Bool := c.isLower || c.isDigit

/-- A character of `[a-zA-Z0-9_\-\.]`. -/
def isLabelChar (c : Char) : Bool := isAlnum c || c == '_' || c == '-' || c == '.'

/-- A character that pod names are stripped of. -/
def isSeparator (c : Char) : Bool := c == '.' || c == '-'

/-! ## What is made elsewhere -/

/-- What `slugify(name, lowercase=True)` returns: words joined by hyphens. -/
structure Slug where
  words : List (List Char)
  word : ∀ w ∈ words, w ≠ [] ∧ ∀ c ∈ w, isLowerAlnum c = true

def Slug.text (slug : Slug) : List Char := ['-'].intercalate slug.words

/-- What `rand_str(num)` returns. -/
structure RandStr (num : Nat) where
  chars : List Char
  length_eq : chars.length = num
  lower : ∀ c ∈ chars, isLowerAlnum c = true

/-- What `md5(…).hexdigest()` returns. -/
structure HexDigest where
  chars : List Char
  length_eq : chars.length = 32
  hex : ∀ c ∈ chars, c ∈ "0123456789abcdef".toList

/-! ## Pod names -/

/-- `POD_NAME_MAX_LENGTH`. -/
def podNameMaxLength : Nat := 63

/-- The slice `s[:n]`. -/
def sliceTo (s : List Char) (n : Int) : List Char :=
  s.take (if n < 0 then s.length + n else n).toNat

/-- `add_pod_suffix`. -/
def addPodSuffix {randLen : Nat} (podName : List Char) (randStr : RandStr randLen)
    (maxLen : Nat := podNameMaxLength) : List Char :=
  let suffix := '-' :: randStr.chars
  Trim.strip isSeparator (sliceTo podName (maxLen - suffix.length)) ++ suffix

/-- `create_pod_id`; `none` and the empty id are both false. -/
def createPodId (slugify : List Char → Slug) (dagId taskId : Option (List Char))
    (randStr : RandStr 8) (maxLength : Nat := podNameMaxLength) (unique : Bool := true) :
    Except String (List Char) :=
  let dag := dagId.getD []
  let task := taskId.getD []
  if dag = [] ∧ task = [] then .error "Must supply either dag_id or task_id."
  else
    let name := if task = [] then dag else if dag = [] then task else dag ++ '-' :: task
    let baseName := Trim.strip isSeparator (sliceTo (slugify name).text maxLength)
    .ok (if unique then addPodSuffix baseName randStr maxLength else baseName)

/-! ## Label values -/

/-- `MAX_LABEL_LEN`. -/
def maxLabelLen : Nat := 63

/-- The rest of the substitution after the run at the beginning: a character that a label cannot
have is removed, and a run without alphanumerics up to the end. -/
def removeUnsafe : List Char → List Char
  | [] => []
  | c :: rest =>
    if !isLabelChar c then removeUnsafe rest
    else if (c :: rest).all (!isAlnum ·) then []
    else c :: removeUnsafe rest

/-- `re2.sub(r"^[^a-z0-9A-Z]*|[^a-zA-Z0-9_\-\.]|[^a-z0-9A-Z]*$", "", string)`. -/
def safeLabel (string : List Char) : List Char :=
  removeUnsafe (string.dropWhile (!isAlnum ·))

/-- `make_safe_label_value`. -/
def makeSafeLabelValue (md5 : List Char → HexDigest) (string : List Char) : List Char :=
  let safe := safeLabel string
  if safe.length > maxLabelLen ∨ string ≠ safe then
    let safeHash := (md5 string).chars.take 9
    sliceTo safe (maxLabelLen - safeHash.length - 1) ++ '-' :: safeHash
  else safe

/-! ## What Kubernetes accepts -/

/-- A valid name of a pod. -/
structure ValidPodName (s : List Char) : Prop where
  length_le : s.length ≤ 63
  chars : ∀ c ∈ s, isLowerAlnum c = true ∨ isSeparator c = true
  ends : Trim.Ends isAlnum s

/-- A valid value of a label. -/
structure ValidLabel (s : List Char) : Prop where
  length_le : s.length ≤ 63
  chars : ∀ c ∈ s, isLabelChar c = true
  ends : s ≠ [] → Trim.Ends isAlnum s

end Airflow.Kubernetes
