import Litefunctions.PercentText
import Litefunctions.SeparatedText
import Mathlib.Data.List.DropRight
import Mathlib.Data.List.TakeWhile

/-!
# Texts of URLs

The authority of a URL is what stands between the two slashes and the next
slash, question mark or number sign.  Credentials come before the last `@` of
the authority, a name and a password with a colon between them.  `new URL` reads
a URL of a web server and shows its host in a standard form.
-/

namespace Litefunctions

namespace UrlText

open PercentText (decode hasEscape)
open Utf8Text (encode)

/-! ### Cuts -/

/-- A text before and behind the first occurrence of a mark. -/
def cutFirst (mark : Char) : List Char → Option (List Char × List Char)
  | [] => none
  | char :: rest =>
      if char = mark then some ([], rest)
      else (cutFirst mark rest).map fun cut => (char :: cut.1, cut.2)

/-- A text before and behind the last occurrence of a mark. -/
def cutLast (mark : Char) : List Char → Option (List Char × List Char)
  | [] => none
  | char :: rest =>
      match cutLast mark rest with
      | some cut => some (char :: cut.1, cut.2)
      | none => if char = mark then some ([], rest) else none

section Cuts

variable {mark : Char} {text front back : List Char}

theorem cutFirst_append (notIn : mark ∉ front) (back : List Char) :
    cutFirst mark (front ++ mark :: back) = some (front, back) := by
  induction front with
  | nil => simp [cutFirst]
  | cons char front ih =>
      rw [List.mem_cons, not_or] at notIn
      rw [List.cons_append, cutFirst, if_neg (Ne.symm notIn.1), ih notIn.2, Option.map_some]

theorem cutFirst_eq_some (isCut : cutFirst mark text = some (front, back)) :
    text = front ++ mark :: back ∧ mark ∉ front := by
  induction text generalizing front with
  | nil => cases isCut
  | cons char rest ih =>
      rw [cutFirst] at isCut
      split at isCut
      · next isMark =>
          cases isCut
          exact ⟨by rw [isMark]; rfl, List.not_mem_nil⟩
      · next other =>
          obtain ⟨⟨later, behind⟩, isLater, same⟩ := Option.map_eq_some_iff.mp isCut
          cases same
          obtain ⟨rfl, notIn⟩ := ih isLater
          exact ⟨rfl, by simp [notIn, Ne.symm other]⟩

theorem cutLast_eq_none (notIn : mark ∉ text) : cutLast mark text = none := by
  induction text with
  | nil => rfl
  | cons char rest ih =>
      rw [List.mem_cons, not_or] at notIn
      rw [cutLast, ih notIn.2]
      exact if_neg (Ne.symm notIn.1)

theorem cutLast_append (front : List Char) (notIn : mark ∉ back) :
    cutLast mark (front ++ mark :: back) = some (front, back) := by
  induction front with
  | nil => rw [List.nil_append, cutLast, cutLast_eq_none notIn, if_pos rfl]
  | cons char front ih => rw [List.cons_append, cutLast, ih]

theorem cutLast_eq_some (isCut : cutLast mark text = some (front, back)) :
    text = front ++ mark :: back := by
  induction text generalizing front with
  | nil => cases isCut
  | cons char rest ih =>
      rw [cutLast] at isCut
      split at isCut
      · next cut isLater =>
          cases isCut
          rw [ih isLater]
          rfl
      · split at isCut
        · next isMark =>
            cases isCut
            rw [isMark]
            rfl
        · cases isCut

end Cuts

/-! ### Credentials -/

def endsAuthority (char : Char) : Bool :=
  char ∈ ['/', '?', '#']

structure UrlParts where
  scheme : List Char
  authority : List Char
  tail : List Char
  deriving DecidableEq, Repr

def cutUrl (url : List Char) : Option UrlParts := do
  let (scheme, rest) ← cutFirst ':' url
  match rest with
  | '/' :: '/' :: rest =>
      some ⟨scheme, rest.takeWhile fun char => !endsAuthority char,
        rest.dropWhile fun char => !endsAuthority char⟩
  | _ => none

/-- The decoded name and password in an authority. -/
def credentialsOf (authority : List Char) : Option (Bytes × Bytes) := do
  let cut ← cutLast '@' authority
  let pair ← cutFirst ':' cut.1
  return (decode pair.1, decode pair.2)

def credentials (url : List Char) : Option (Bytes × Bytes) := do
  let parts ← cutUrl url
  credentialsOf parts.authority

def withoutCredentials (url : List Char) : Option (List Char) := do
  let parts ← cutUrl url
  let host := (cutLast '@' parts.authority).elim parts.authority Prod.snd
  return parts.scheme ++ ':' :: '/' :: '/' :: (host ++ parts.tail)

theorem cutUrl_append {scheme : List Char} (noColon : ':' ∉ scheme) (rest : List Char) :
    cutUrl (scheme ++ ':' :: '/' :: '/' :: rest) =
      some ⟨scheme, rest.takeWhile fun char => !endsAuthority char,
        rest.dropWhile fun char => !endsAuthority char⟩ := by
  rw [cutUrl, cutFirst_append noColon]
  rfl

theorem takeWhile_prefix {keeps : Char → Bool} {front : List Char} {char : Char}
    (member : char ∈ front) (stops : keeps char = false) (rest : List Char) :
    (front ++ rest).takeWhile keeps <+: front := by
  induction front with
  | nil => cases member
  | cons first front ih =>
      rw [List.cons_append, List.takeWhile_cons]
      split
      · next kept =>
          rcases List.mem_cons.mp member with rfl | behind
          · rw [stops] at kept
            cases kept
          · exact List.cons_prefix_cons.mpr ⟨rfl, ih behind⟩
      · exact List.nil_prefix

theorem takeWhile_authority {authority tail : List Char}
    (inside : ∀ char ∈ authority, endsAuthority char = false)
    (ends : ∀ char ∈ tail.head?, endsAuthority char = true) :
    ((authority ++ tail).takeWhile fun char => !endsAuthority char) = authority := by
  rw [List.takeWhile_append_of_pos (by simpa using inside)]
  cases tail with
  | nil => simp
  | cons char tail => simp [ends char rfl]

theorem dropWhile_authority {authority tail : List Char}
    (inside : ∀ char ∈ authority, endsAuthority char = false)
    (ends : ∀ char ∈ tail.head?, endsAuthority char = true) :
    ((authority ++ tail).dropWhile fun char => !endsAuthority char) = tail := by
  rw [List.dropWhile_append_of_pos (by simpa using inside)]
  cases tail with
  | nil => simp
  | cons char tail => simp [ends char rfl]

section Credentials

variable {scheme userinfo user password host tail : List Char}

theorem takeWhile_userinfo (inside : ∀ char ∈ userinfo ++ '@' :: host, endsAuthority char = false)
    (ends : ∀ char ∈ tail.head?, endsAuthority char = true) :
    ((userinfo ++ '@' :: (host ++ tail)).takeWhile fun char => !endsAuthority char) =
      userinfo ++ '@' :: host := by
  rw [← List.cons_append, ← List.append_assoc]
  exact takeWhile_authority inside ends

theorem credentialsOf_append (userinfo : List Char) (noAt : '@' ∉ host) :
    credentialsOf (userinfo ++ '@' :: host) =
      (cutFirst ':' userinfo).map fun pair => (decode pair.1, decode pair.2) := by
  rw [credentialsOf, cutLast_append _ noAt, Option.bind_eq_bind, Option.bind_some]
  cases cutFirst ':' userinfo with
  | none => rfl
  | some pair => rfl

/-- The parts of a URL with credentials that do not end its authority. -/
theorem credentials_append (noColon : ':' ∉ scheme)
    (inside : ∀ char ∈ userinfo ++ '@' :: host, endsAuthority char = false)
    (ends : ∀ char ∈ tail.head?, endsAuthority char = true) (noAt : '@' ∉ host) :
    credentials (scheme ++ ':' :: '/' :: '/' :: (userinfo ++ '@' :: (host ++ tail))) =
        (cutFirst ':' userinfo).map (fun pair => (decode pair.1, decode pair.2)) ∧
      withoutCredentials (scheme ++ ':' :: '/' :: '/' :: (userinfo ++ '@' :: (host ++ tail))) =
        some (scheme ++ ':' :: '/' :: '/' :: (host ++ tail)) := by
  have behind : ((userinfo ++ '@' :: (host ++ tail)).dropWhile fun char => !endsAuthority char) =
      tail := by
    rw [← List.cons_append, ← List.append_assoc]
    exact dropWhile_authority inside ends
  constructor
  · rw [credentials, cutUrl_append noColon, takeWhile_userinfo inside ends]
    exact credentialsOf_append userinfo noAt
  · rw [withoutCredentials, cutUrl_append noColon, takeWhile_userinfo inside ends, behind,
      Option.bind_eq_bind, Option.bind_some, cutLast_append _ noAt]
    rfl

theorem exists_of_credentialsOf {authority : List Char} {decoded : Bytes × Bytes}
    (isPair : credentialsOf authority = some decoded) :
    ∃ first second back, authority = first ++ ':' :: second ++ '@' :: back ∧ ':' ∉ first ∧
      decode first = decoded.1 ∧ decode second = decoded.2 := by
  rw [credentialsOf, Option.bind_eq_bind, Option.bind_eq_some_iff] at isPair
  obtain ⟨⟨front, back⟩, isLast, isPair⟩ := isPair
  rw [Option.bind_eq_some_iff] at isPair
  obtain ⟨⟨first, second⟩, isFirst, isPair⟩ := isPair
  cases isPair
  obtain ⟨rfl, noColon⟩ := cutFirst_eq_some isFirst
  exact ⟨first, second, back, cutLast_eq_some isLast, noColon, rfl, rfl⟩

/-- Credentials that are read decoded need a longer authority than they fill. -/
theorem credentialsOf_prefix {authority : List Char}
    (isPrefix : authority <+: user ++ ':' :: password) :
    credentialsOf authority ≠ some (encode user, encode password) := by
  intro isPair
  obtain ⟨first, second, back, rfl, -, isUser, isPassword⟩ := exists_of_credentialsOf isPair
  obtain ⟨rest, whole⟩ := isPrefix
  have firstLength := PercentText.length_le_of_decode_eq isUser
  have secondLength := PercentText.length_le_of_decode_eq isPassword
  have lengths := congrArg (fun text => (encode text).length) whole
  simp only [PercentText.encode_append, List.length_append, PercentText.encode_cons,
    String.length_utf8EncodeChar] at lengths
  have colon : ':'.utf8Size = 1 := rfl
  have atSign : '@'.utf8Size = 1 := rfl
  omega

/-- Without a mark that ends the authority, a name and a password are read as
they stand where the name has no colon and neither has an escape. -/
theorem cutFirst_decode_iff :
    (cutFirst ':' (user ++ ':' :: password)).map (fun pair => (decode pair.1, decode pair.2)) =
        some (encode user, encode password) ↔
      ':' ∉ user ∧ hasEscape user = false ∧ hasEscape password = false := by
  by_cases noColon : ':' ∈ user
  · apply iff_of_false _ (fun plain => plain.1 noColon)
    intro isPair
    obtain ⟨⟨first, second⟩, isFirst, same⟩ := Option.map_eq_some_iff.mp isPair
    rw [Prod.mk.injEq] at same
    have shorter := PercentText.length_le_of_decode_eq same.1
    obtain ⟨whole, notIn⟩ := cutFirst_eq_some isFirst
    rcases SeparatedText.append_cons_eq_iff.mp whole with ⟨rfl, -⟩ | ⟨middle, rfl, -⟩ |
        ⟨middle, rfl, -⟩
    · exact notIn noColon
    · have colon : ':'.utf8Size = 1 := rfl
      simp only [PercentText.encode_append, List.length_append, PercentText.encode_cons,
        String.length_utf8EncodeChar] at shorter
      omega
    · exact notIn (List.mem_append_right _ List.mem_cons_self)
  · rw [cutFirst_append noColon, Option.map_some, Option.some.injEq, Prod.mk.injEq,
      PercentText.decode_eq_encode_iff, PercentText.decode_eq_encode_iff]
    simp [noColon]

/-- A name and a password are read from a URL as they stand in it where they do
not end the authority, the name has no colon and neither has an escape. -/
theorem credentials_eq_iff (noColon : ':' ∉ scheme)
    (inside : ∀ char ∈ host, endsAuthority char = false)
    (ends : ∀ char ∈ tail.head?, endsAuthority char = true) (noAt : '@' ∉ host) :
    credentials (scheme ++ ':' :: '/' :: '/' ::
        (user ++ ':' :: password ++ '@' :: (host ++ tail))) =
          some (encode user, encode password) ↔
      (∀ char ∈ user ++ password, endsAuthority char = false) ∧ ':' ∉ user ∧
        hasEscape user = false ∧ hasEscape password = false := by
  have free_iff : (∀ char ∈ user ++ password, endsAuthority char = false) ↔
      ∀ char ∈ user ++ ':' :: password, endsAuthority char = false := by
    have colon : endsAuthority ':' = false := by decide
    simp only [List.forall_mem_append, List.forall_mem_cons, colon, true_and]
  rw [free_iff]
  by_cases free : ∀ char ∈ user ++ ':' :: password, endsAuthority char = false
  · have atSign : endsAuthority '@' = false := by decide
    have allInside : ∀ char ∈ user ++ ':' :: password ++ '@' :: host,
        endsAuthority char = false := by
      rw [List.forall_mem_append, List.forall_mem_cons]
      exact ⟨free, atSign, inside⟩
    rw [(credentials_append noColon allInside ends noAt).1, cutFirst_decode_iff]
    exact (and_iff_right free).symm
  · apply iff_of_false _ (fun plain => free plain.1)
    rw [credentials, cutUrl_append noColon]
    apply credentialsOf_prefix
    have ended : ∃ char ∈ user ++ ':' :: password, (!endsAuthority char) = false := by
      simpa using free
    obtain ⟨char, member, isEnd⟩ := ended
    exact takeWhile_prefix member isEnd _

end Credentials

end UrlText

end Litefunctions
