import Mathlib.Data.List.TakeDrop
import VodogeEdge.Text
import VodogeEdge.Utf8

/-!
# The gate before the panel

Whoever is not on the machine itself has to show the panel's token, in an
`Authorization` header or in a cookie. The cookie is looked for part by
part, and a part without `=` ends the search: `token_found_iff`.
-/

namespace VodogeEdge.Panel

open List

def cookie : String := "vodoge_panel"

/-- `PanelToken::matches`: every byte is looked at. -/
def tokenMatches (token candidate : String) : Bool :=
  let expected := utf8Bytes token
  let given := utf8Bytes candidate
  if expected.length ≠ given.length then false
  else (expected.zip given).foldl (fun diff pair => diff ||| (pair.1 ^^^ pair.2)) 0 = 0

inductive Verdict where
  | allowed
  | loopback
  | needsToken
  | wrongToken

def Verdict.admits : Verdict → Bool
  | .allowed | .loopback => true
  | _ => false

/-- The peer is known by whether its address is a loopback one. -/
def admits (token : String) (peerIsLoopback : Option Bool) (presented : Option String) : Verdict :=
  match presented with
  | some candidate => if tokenMatches token candidate then .allowed else .wrongToken
  | none => if peerIsLoopback = some true then .loopback else .needsToken

def valueIn (name key value : String) : Option String :=
  if trim key = name ∧ trim value ≠ "" then some (trim value) else none

def searchParts (name : String) : List String → Option String
  | [] => none
  | part :: parts =>
    match splitOnce '=' (trim part) with
    -- the `?` of the source leaves the function, not the part
    | none => none
    | some (key, value) => (valueIn name key value).or (searchParts name parts)

def cookieValue (headerLine name : String) : Option String :=
  searchParts name ((headerLine.toList.splitOn ';').map String.ofList)

/-- The two headers, where they are there and can be read as text. -/
structure Headers where
  authorization : Option String
  cookies : Option String

def bearerToken (value : String) : Option String :=
  match value.toList.dropPrefix? "Bearer ".toList with
  | none => none
  | some rest =>
    let token := trimBy isWhitespace rest
    if token.isEmpty then none else some (String.ofList token)

def presentedToken (headers : Headers) : Option String :=
  (headers.authorization.bind bearerToken).or (headers.cookies.bind (cookieValue · cookie))

/-! ## Where the token stands -/

/-- What a part holds for the name, if it is a cookie of that name. -/
def heldIn (name part : String) : Option String :=
  (splitOnce '=' (trim part)).bind fun (key, value) => valueIn name key value

def headerOf (parts : List String) : String :=
  String.ofList ([';'].intercalate (parts.map String.toList))

theorem cookieValue_headerOf {parts : List String} (hparts : ∀ part ∈ parts, ';' ∉ part.toList)
    (hne : parts ≠ []) (name : String) :
    cookieValue (headerOf parts) name = searchParts name parts := by
  rw [cookieValue, headerOf, String.toList_ofList, splitOn_intercalate]
  · simp
  · simpa using hparts
  · simpa using hne

theorem splitOnce_eq_none {separator : Char} {value : String} :
    splitOnce separator value = none ↔ separator ∉ value.toList := by
  have hrest : value.toList.dropWhile (· ≠ separator) = [] ↔ separator ∉ value.toList := by
    simp [← forall_mem_ne']
  rw [splitOnce, span_eq_takeWhile_dropWhile, ← hrest]
  cases value.toList.dropWhile (· ≠ separator) <;> simp

theorem mem_trim {c : Char} (hc : isWhitespace c = false) {part : String} :
    c ∈ (trim part).toList ↔ c ∈ part.toList := by
  rw [trim, String.toList_ofList, ← count_pos_iff, count_trimBy hc, count_pos_iff]

/-- The search gets to the part that holds the token, unless it stops before. -/
theorem searchParts_iff {name token part : String} (htoken : heldIn name part = some token)
    (after : List String) : ∀ {before : List String},
      (∀ other ∈ before, heldIn name other = none) →
        (searchParts name (before ++ part :: after) = some token ↔
          ∀ other ∈ before, '=' ∈ other.toList)
  | [], _ => by
    obtain ⟨⟨key, value⟩, hsplit, hvalue⟩ := Option.bind_eq_some_iff.mp htoken
    simp [searchParts, hsplit, hvalue]
  | first :: before, h => by
    have hrest := searchParts_iff htoken after (forall_mem_cons.mp h).2
    rw [forall_mem_cons, ← hrest, ← mem_trim (by decide)]
    cases hsplit : splitOnce '=' (trim first) with
    | none => simp [searchParts, hsplit, splitOnce_eq_none.mp]
    | some pair =>
      have hheld := (forall_mem_cons.mp h).1
      have hmem : '=' ∈ (trim first).toList := by
        by_contra hnot
        rw [splitOnce_eq_none.mpr hnot] at hsplit
        cases hsplit
      rw [heldIn, hsplit, Option.bind_some] at hheld
      simp [searchParts, hsplit, hheld, hmem]

theorem tokenMatches_self (token : String) : tokenMatches token token := by
  have hfold : ∀ bytes : Bytes,
      (bytes.zip bytes).foldl (fun diff pair => diff ||| (pair.1 ^^^ pair.2)) (0) = 0 := by
    intro bytes
    induction bytes with
    | nil => rfl
    | cons byte bytes ih => simpa using ih
  simp [tokenMatches, hfold]

/-- In a header with one cookie for the token, the token is found and
opens the panel exactly if no part before it lacks a `=`. -/
theorem token_found_iff {before after : List String} {part token : String}
    (hparts : ∀ other ∈ before ++ part :: after, ';' ∉ other.toList)
    (htoken : heldIn cookie part = some token)
    (hothers : ∀ other ∈ before ++ after, heldIn cookie other = none) :
    (cookieValue (headerOf (before ++ part :: after)) cookie = some token ∧
      ∀ authorization peer, authorization.bind bearerToken = none →
        (admits token peer (presentedToken
          ⟨authorization, some (headerOf (before ++ part :: after))⟩)).admits) ↔
      ∀ other ∈ before, '=' ∈ other.toList := by
  rw [← searchParts_iff htoken after fun other h => hothers other (mem_append_left _ h),
    ← cookieValue_headerOf hparts (by simp)]
  refine and_iff_left_of_imp fun hfound authorization peer hnone => ?_
  rw [presentedToken, hnone, Option.none_or, Option.bind_some, hfound, admits, tokenMatches_self]
  rfl

theorem token_found_behind_theme :
    cookieValue (headerOf ["theme=dark", " vodoge_panel=0123456789abcdef"]) cookie
      = some "0123456789abcdef" :=
  ((@token_found_iff ["theme=dark"] [] _ _ (by decide) (by decide) (by decide)).mpr (by decide)).1

/-- Behind a part without a value the token is not seen, and a browser
that has it is asked for it. -/
theorem token_hidden_behind_flag :
    heldIn cookie " vodoge_panel=0123456789abcdef" = some "0123456789abcdef" ∧
      heldIn cookie "seen" = none ∧
      let header := headerOf ["seen", " vodoge_panel=0123456789abcdef"]
      cookieValue header cookie = none ∧
        (admits "0123456789abcdef" (some false) (presentedToken ⟨none, some header⟩)).admits
          = false := by
  decide

end VodogeEdge.Panel
