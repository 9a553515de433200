import HarnessAgent.Isolation.GitFailures

/-! # Cloning with a token

The token of a clone stands in its URL, so git may show it. Wherever the code returns what
git reports, the token has been replaced.
-/

namespace HarnessAgent

open LexicalPath

inductive GitErrorCode where
  | notARepo (path : List Char)
  | permissionDenied (path : List Char)
  | branchNotFound (branch : List Char)
  | noSpace (path : List Char)
  | unknown (message : List Char)
  deriving DecidableEq, Repr

def GitErrorCode.text : GitErrorCode → List Char
  | .notARepo path | .permissionDenied path | .noSpace path => path
  | .branchNotFound branch => branch
  | .unknown message => message

namespace GitFailures

def afterScheme (scheme : String) (url : List Char) : Option (List Char) :=
  Text.afterLiteral scheme.toList url

def unsupportedScheme (url : List Char) : List Char :=
  "Unsupported URL scheme for token injection: ".toList ++ url

def injectTokenIntoUrl (url token : List Char) : Except (List Char) (List Char) :=
  match afterScheme "https://" url with
  | some rest => .ok ("https://".toList ++ token ++ "@".toList ++ rest)
  | none =>
      match afterScheme "http://" url with
      | some rest => .ok ("http://".toList ++ token ++ "@".toList ++ rest)
      | none => .error (unsupportedScheme url)

def authenticated (url : List Char) : Option (List Char) → Except (List Char) (List Char)
  | none => .ok url
  | some token => injectTokenIntoUrl url token

def sanitize (token : Option (List Char)) (message : List Char) : List Char :=
  match token with
  | none => message
  | some token => Text.replace token "***".toList message

def cloneError (url : List Char) (targetPath : Path) (sanitized : List Char) : GitErrorCode :=
  if shows ["not found", "404"] sanitized then .notARepo url
  else if shows ["authentication failed", "could not read"] sanitized then .permissionDenied url
  else if shows ["no space"] sanitized then .noSpace targetPath
  else .unknown sanitized

/-- The git commands of a call that do not run in a repository: by their arguments. -/
abbrev CloneEndings := List (List Char) → Except Fault (List Char)

def cloneRepository (endings : CloneEndings) (url : List Char) (targetPath : Path)
    (token : Option (List Char)) : Except GitErrorCode Unit :=
  match authenticated url token with
  | .error error => .error (.unknown ("Invalid clone URL: ".toList ++ error))
  | .ok cloneUrl =>
      let arguments := ["clone".toList, cloneUrl, targetPath]
      match endings arguments with
      | .ok _ => .ok ()
      | .error fault =>
          .error (cloneError url targetPath (sanitize token (fault.message 120000 arguments)))

variable {url : List Char}

theorem not_infix_cloneError (notUrl : ¬token <:+: url) (notTarget : ¬token <:+: targetPath)
    (notSanitized : ¬token <:+: sanitized) :
    ¬token <:+: (cloneError url targetPath sanitized).text := by
  rw [cloneError]
  split
  · exact notUrl
  · split
    · exact notUrl
    · split
      · exact notTarget
      · exact notSanitized

theorem not_infix_sanitize (shown : token ≠ []) (plain : '*' ∉ token) (message : List Char) :
    ¬token <:+: sanitize (some token) message := by
  have stars : ∀ character ∈ "***".toList, character ∉ token := by
    intro character member
    have star : ∀ own ∈ "***".toList, own = '*' := Text.forall_of_all rfl
    rw [star character member]
    exact plain
  exact Text.not_infix_replace shown (by decide) stars message

def TakesToken (url : List Char) : Prop :=
  "https://".toList <+: url ∨ "http://".toList <+: url

theorem afterScheme_eq_none_iff {scheme : String} :
    afterScheme scheme url = none ↔ ¬scheme.toList <+: url := by
  constructor
  · intro absent starts
    rcases starts with ⟨rest, split⟩
    have found : afterScheme scheme url = some rest :=
      List.isPrefixOf?_eq_some_iff_append_eq.mpr split
    rw [found] at absent
    cases absent
  · intro absent
    cases found : afterScheme scheme url with
    | none => rfl
    | some rest => exact absurd ⟨rest, List.isPrefixOf?_eq_some_iff_append_eq.mp found⟩ absent

theorem injectTokenIntoUrl_of_not_takes (other : ¬TakesToken url) (token : List Char) :
    injectTokenIntoUrl url token = .error (unsupportedScheme url) := by
  rw [injectTokenIntoUrl, afterScheme_eq_none_iff.mpr fun starts => other (.inl starts),
    afterScheme_eq_none_iff.mpr fun starts => other (.inr starts)]

theorem exists_injected (takes : TakesToken url) (token : List Char) :
    ∃ cloneUrl, injectTokenIntoUrl url token = .ok cloneUrl := by
  rw [injectTokenIntoUrl]
  cases secure : afterScheme "https://" url with
  | some rest => exact ⟨_, rfl⟩
  | none =>
      cases insecure : afterScheme "http://" url with
      | some rest => exact ⟨_, rfl⟩
      | none =>
          rcases takes with starts | starts
          · exact absurd starts (afterScheme_eq_none_iff.mp secure)
          · exact absurd starts (afterScheme_eq_none_iff.mp insecure)

theorem cloneRepository_of_authenticated (authentic : authenticated url token = .ok cloneUrl)
    (ending : endings ["clone".toList, cloneUrl, targetPath] = .error fault) :
    cloneRepository endings url targetPath token =
      .error (cloneError url targetPath
        (sanitize token (fault.message 120000 ["clone".toList, cloneUrl, targetPath]))) := by
  simp only [cloneRepository, authentic, ending]

theorem cloneRepository_of_not_takes (other : ¬TakesToken url) (endings : CloneEndings)
    (targetPath : Path) (token : List Char) :
    cloneRepository endings url targetPath (some token) =
      .error (.unknown ("Invalid clone URL: ".toList ++ unsupportedScheme url)) := by
  have refused : authenticated url (some token) = .error (unsupportedScheme url) :=
    injectTokenIntoUrl_of_not_takes other token
  simp only [cloneRepository, refused]

/-- No error shows the token that the clone was asked for with. An error for a URL that no
token can be put into says the same for all tokens, and git is not run. -/
theorem cloneRepository_hides (endings : CloneEndings) (url : List Char) (targetPath : Path)
    (token : List Char) (shown : token ≠ []) (plain : '*' ∉ token) (notUrl : ¬token <:+: url)
    (notTarget : ¬token <:+: targetPath) (error : GitErrorCode)
    (failed : cloneRepository endings url targetPath (some token) = .error error) :
    (TakesToken url → ¬token <:+: error.text) ∧
      (¬TakesToken url → ∀ others other,
        cloneRepository others url targetPath (some other) = .error error) := by
  constructor
  · intro takes
    rcases exists_injected takes token with ⟨cloneUrl, injected⟩
    have authentic : authenticated url (some token) = .ok cloneUrl := injected
    cases ending : endings ["clone".toList, cloneUrl, targetPath] with
    | ok output =>
        have succeeded : cloneRepository endings url targetPath (some token) = .ok () := by
          simp only [cloneRepository, authentic, ending]
        rw [succeeded] at failed
        cases failed
    | error fault =>
        rw [cloneRepository_of_authenticated authentic ending] at failed
        cases failed
        apply not_infix_cloneError notUrl notTarget
        exact not_infix_sanitize shown plain _
  · intro unsupported others other
    rw [cloneRepository_of_not_takes unsupported] at failed
    rw [cloneRepository_of_not_takes unsupported, failed]

def quotingEndings : CloneEndings := fun _ =>
  .error (.exit 128 "fatal: https://s3cret@h/r: https://s3cret@h/r".toList false)

theorem cloneRepository_hides_secret :
    ¬"s3cret".toList <:+: (cloneError "https://h/r".toList "/t".toList
      (sanitize (some "s3cret".toList) ((Fault.exit 128
        "fatal: https://s3cret@h/r: https://s3cret@h/r".toList false).message 120000
          ["clone".toList, "https://s3cret@h/r".toList, "/t".toList]))).text := by
  have absent (text : String) (tested : Text.occurs "s3cret".toList text.toList = false) :
      ¬"s3cret".toList <:+: text.toList := by
    rw [← Text.occurs_iff_infix, tested]
    exact Bool.false_ne_true
  apply (cloneRepository_hides quotingEndings "https://h/r".toList "/t".toList "s3cret".toList
    (by decide) (by decide) (absent "https://h/r" (by decide)) (absent "/t" (by decide)) _
    rfl).1
  exact .inl ⟨"h/r".toList, rfl⟩

theorem not_hides_unsupported :
    ¬∀ (endings : CloneEndings) (url : List Char) (targetPath : Path) (token : List Char),
      token ≠ [] → '*' ∉ token → ¬token <:+: url → ¬token <:+: targetPath →
        ∀ error, cloneRepository endings url targetPath (some token) = .error error →
          ¬token <:+: error.text := by
  intro always
  have hidden := always quotingEndings "git@h:r".toList "/t".toList ['U'] (by decide) (by decide)
    (by rw [← Text.occurs_iff_infix]; decide) (by rw [← Text.occurs_iff_infix]; decide) _ rfl
  apply hidden
  rw [← Text.occurs_iff_infix]
  decide

end GitFailures

end HarnessAgent
