import Litefunctions.LeftmostMatches
import Litefunctions.WebUrls

/-!
# URLs of repositories with a token

The TypeScript and the Lua runtime clone the repository of their project, with a
token in the URL if they have one.  The TypeScript runtime escapes the
credentials, and builds the URL from the host of the base URL without its path.
The Lua runtime keeps the path, and does not escape the credentials.
-/

namespace Litefunctions

open LeftmostMatches UrlText
open PercentText (encodeChar encodeURIComponent escapeByte hasEscape isUnescaped upperDigit)
open Utf8Text (encode)

/-- The settings of a runtime that the URL of its repository is made of. -/
structure RepositorySettings where
  vcsBaseURL : String
  gitUser : String
  gitToken : String
  project : String
  deriving DecidableEq, Repr

namespace RepositorySettings

/-- The user whose repository is cloned. -/
def owner (settings : RepositorySettings) : String :=
  if settings.gitUser ≠ "" then settings.gitUser else "git"

end RepositorySettings

namespace TsRuntime

/-- `replace(/%40/g, "@")`. -/
def replaceEscapedAt : List Char → List Char
  | [] => []
  | '%' :: '4' :: '0' :: rest => '@' :: replaceEscapedAt rest
  | char :: rest => char :: replaceEscapedAt rest

def encodeGitPart (value : String) : String :=
  String.ofList (replaceEscapedAt (encodeURIComponent value).toList)

/-- The URL, unless `new URL` throws. -/
def repoURL (hosts : HostParser) (settings : RepositorySettings) : Option String :=
  let owner := settings.owner
  let projectPath := s!"{owner}/{settings.project}"
  if settings.gitToken = "" then
    some s!"{settings.vcsBaseURL}/{projectPath}"
  else do
    let base ← newURL hosts settings.vcsBaseURL.toList
    let user := encodeGitPart owner
    let token := encodeGitPart settings.gitToken
    let protocol := String.ofList base.protocol
    let host := String.ofList base.host
    return s!"{protocol}//{user}:{token}@{host}/{projectPath}"

end TsRuntime

namespace LuaRuntime

/-- A text with this scheme and a rest behind it. -/
def captured (proto : String) : List Char → Option (String × String) :=
  behind (proto.toList ++ "://".toList) fun rest =>
    if rest = [] then none else some (proto, String.ofList rest)

/-- The captures of `^(https?)://(.+)$`. -/
def protoAndHost (text : String) : Option (String × String) :=
  (captured "https" text.toList).or (captured "http" text.toList)

def repoUrl (settings : RepositorySettings) : String :=
  let owner := settings.owner
  let plain := s!"{settings.vcsBaseURL}/{owner}/{settings.project}"
  if settings.gitToken = "" then plain
  else
    match protoAndHost settings.vcsBaseURL with
    | none => plain
    | some (proto, host) =>
        s!"{proto}://{owner}:{settings.gitToken}@{host}/{owner}/{settings.project}"

end LuaRuntime

/-- The runtimes that put a token into the URL. -/
inductive CloningRuntime where
  | typescript
  | lua
  deriving DecidableEq, Repr

def CloningRuntime.repoURL (hosts : HostParser) (runtime : CloningRuntime)
    (settings : RepositorySettings) : Option String :=
  match runtime with
  | typescript => TsRuntime.repoURL hosts settings
  | lua => some (LuaRuntime.repoUrl settings)

/-! ### Escaped parts -/

namespace TsRuntime

/-- What becomes of a character of a part. -/
def gitChar (char : Char) : List Char :=
  if char = '@' then ['@'] else encodeChar char

theorem replaceEscapedAt_cons {char : Char} (other : char ≠ '%') (rest : List Char) :
    replaceEscapedAt (char :: rest) = char :: replaceEscapedAt rest := by
  rw [replaceEscapedAt]
  rintro _ rfl
  exact absurd rfl other

theorem replaceEscapedAt_escapeByte {byte : UInt8} (other : byte.toNat ≠ 64) (rest : List Char) :
    replaceEscapedAt (escapeByte byte ++ rest) = escapeByte byte ++ replaceEscapedAt rest := by
  have bound : byte.toNat < 256 := byte.toNat_lt
  have noPercent : ∀ value : Fin 16, upperDigit value ≠ '%' := by decide
  have isFour : ∀ value : Fin 16, upperDigit value = '4' → value = 4 := by decide
  have isZero : ∀ value : Fin 16, upperDigit value = '0' → value = 0 := by decide
  have high := noPercent ⟨byte.toNat / 16, by omega⟩
  have low := noPercent ⟨byte.toNat % 16, by omega⟩
  rw [escapeByte, List.cons_append, List.cons_append, List.cons_append, List.nil_append,
    replaceEscapedAt, replaceEscapedAt_cons high, replaceEscapedAt_cons low]
  · rfl
  · intro others _ isAt
    have highFour := isFour ⟨byte.toNat / 16, by omega⟩ (List.cons.inj isAt).1
    have lowZero := isZero ⟨byte.toNat % 16, by omega⟩ (List.cons.inj (List.cons.inj isAt).2).1
    simp only [Fin.ext_iff] at highFour lowZero
    change byte.toNat / 16 = 4 at highFour
    change byte.toNat % 16 = 0 at lowZero
    omega

theorem replaceEscapedAt_bytes {bytes : Bytes} (others : ∀ byte ∈ bytes, byte.toNat ≠ 64)
    (rest : List Char) :
    replaceEscapedAt (bytes.flatMap escapeByte ++ rest) =
      bytes.flatMap escapeByte ++ replaceEscapedAt rest := by
  induction bytes with
  | nil => rfl
  | cons byte bytes ih =>
      obtain ⟨other, others⟩ := List.forall_mem_cons.mp others
      rw [List.flatMap_cons, List.append_assoc, replaceEscapedAt_escapeByte other, ih others,
        List.append_assoc]

theorem replaceEscapedAt_encodeChar (char : Char) (rest : List Char) :
    replaceEscapedAt (encodeChar char ++ rest) = gitChar char ++ replaceEscapedAt rest := by
  by_cases isAt : char = '@'
  · have escaped : encodeChar '@' = ['%', '4', '0'] := by decide
    rw [gitChar, if_pos isAt, isAt, escaped]
    rfl
  · rw [gitChar, if_neg isAt]
    unfold encodeChar
    split
    · next unescaped =>
        exact replaceEscapedAt_cons (PercentText.isUnescaped_ne unescaped (by decide)) rest
    · apply replaceEscapedAt_bytes
      intro byte member isByte
      apply isAt
      rw [Utf8Text.eq_of_mem_utf8EncodeChar member (by omega), isByte]

theorem encodeGitPart_toList (value : String) :
    (encodeGitPart value).toList = value.toList.flatMap gitChar := by
  rw [encodeGitPart, String.toList_ofList, encodeURIComponent, String.toList_ofList]
  induction value.toList with
  | nil => rfl
  | cons char chars ih =>
      rw [List.flatMap_cons, replaceEscapedAt_encodeChar, ih, List.flatMap_cons]

/-- An escaped part decodes to the value. -/
theorem decode_encodeGitPart (value : String) :
    PercentText.decode (encodeGitPart value).toList = encode value.toList := by
  rw [encodeGitPart_toList]
  induction value.toList with
  | nil => rfl
  | cons char chars ih =>
      rw [List.flatMap_cons, PercentText.encode_cons, ← ih, gitChar]
      split
      · next isAt =>
          rw [isAt]
          exact PercentText.decode_cons (PercentText.escaped?_of_ne (by decide) _)
      · exact PercentText.decode_encodeChar_append char _

/-- No character of an escaped part is a mark of a URL. -/
theorem mem_encodeGitPart {value : String} {char : Char}
    (member : char ∈ (encodeGitPart value).toList) : char ∉ ['/', '?', '#', ':'] := by
  intro isMark
  rw [encodeGitPart_toList] at member
  obtain ⟨source, -, inPart⟩ := List.mem_flatMap.mp member
  rw [gitChar] at inPart
  split at inPart
  · obtain rfl := List.mem_singleton.mp inPart
    exact absurd isMark (by decide)
  · rcases PercentText.mem_encodeChar inPart with rfl | unescaped
    · exact absurd isMark (by decide)
    · simp only [List.mem_cons, List.not_mem_nil, or_false] at isMark
      rcases isMark with rfl | rfl | rfl | rfl <;> exact absurd unescaped (by decide)

end TsRuntime

/-! ### Credentials of repositories -/

/-- The URL with a token has the owner and the token as credentials, and without
them it is the URL that is built without a token. -/
def NamesRepository (withToken withoutToken : Option String) (owner token : String) : Prop :=
  ∃ url plain, withToken = some url ∧ withoutToken = some plain ∧
    credentials url.toList = some (encode owner.toList, encode token.toList) ∧
      withoutCredentials url.toList = some plain.toList

/-- The base URL has no path, and its host and port are shown as they stand in it. -/
def KeepsBase (hosts : HostParser) (base : BaseURL) : Prop :=
  base.path = [] ∧ hosts.serialized base.host = some base.host ∧
    IsNormalPort base.usualPort base.port

/-- The owner and the token are read as they stand in a URL. -/
def KeepsCredentials (owner token : List Char) : Prop :=
  (∀ char ∈ owner ++ token, endsAuthority char = false) ∧ ':' ∉ owner ∧
    hasEscape owner = false ∧ hasEscape token = false

/-- What a runtime needs to name the same repository with a token. -/
def CloningRuntime.KeepsParts (hosts : HostParser) (base : BaseURL)
    (settings : RepositorySettings) : CloningRuntime → Prop
  | typescript => KeepsBase hosts base
  | lua => KeepsCredentials settings.owner.toList settings.gitToken.toList

section Base

variable {hosts : HostParser} {base : BaseURL} {settings : RepositorySettings}
variable (isBase : settings.vcsBaseURL.toList = base.text) (hasToken : settings.gitToken ≠ "")

/-- The path of a repository in its URL. -/
def pathTail (settings : RepositorySettings) : List Char :=
  '/' :: (settings.owner.toList ++ '/' :: settings.project.toList)

include isBase in
theorem repoURL_plain (hosts : HostParser) :
    ∃ plain, TsRuntime.repoURL hosts { settings with gitToken := "" } = some plain ∧
      plain.toList = base.text ++ pathTail settings := by
  apply Exists.intro
  apply And.intro rfl
  simp [pathTail, toString, RepositorySettings.owner, isBase]

include isBase hasToken in
theorem repoURL_token {host port : List Char}
    (isHost : hosts.serialized base.host = some host)
    (isPort : shownPort base.usualPort base.port = some port) :
    ∃ url, TsRuntime.repoURL hosts settings = some url ∧
      url.toList = base.scheme ++ ':' :: '/' :: '/' ::
        ((TsRuntime.encodeGitPart settings.owner).toList ++
            ':' :: (TsRuntime.encodeGitPart settings.gitToken).toList ++
          '@' :: (host ++ port ++ pathTail settings)) := by
  have isURL : newURL hosts settings.vcsBaseURL.toList =
      some ⟨base.scheme ++ [':'], host ++ port⟩ := by
    rw [isBase, newURL_text, isHost, Option.bind_eq_bind, Option.bind_some, isPort]
    rfl
  rw [TsRuntime.repoURL, if_neg hasToken, isURL]
  apply Exists.intro
  apply And.intro rfl
  simp [pathTail, toString]

omit isBase hasToken in
/-- Escaped credentials are read back, and the rest of the URL stays. -/
theorem credentials_escaped (base : BaseURL) {host port : List Char} (isHost : IsHost host)
    (isPort : IsPort port) (owner token : String) (tail : List Char) :
    credentials (base.scheme ++ ':' :: '/' :: '/' :: ((TsRuntime.encodeGitPart owner).toList ++
        ':' :: (TsRuntime.encodeGitPart token).toList ++ '@' :: (host ++ port ++ '/' :: tail))) =
          some (encode owner.toList, encode token.toList) ∧
      withoutCredentials (base.scheme ++ ':' :: '/' :: '/' ::
        ((TsRuntime.encodeGitPart owner).toList ++ ':' :: (TsRuntime.encodeGitPart token).toList ++
          '@' :: (host ++ port ++ '/' :: tail))) =
            some (base.scheme ++ ':' :: '/' :: '/' :: (host ++ port ++ '/' :: tail)) := by
  have plain : ∀ char ∈ host ++ port, isPlainChar char = true := by
    rw [List.forall_mem_append]
    exact ⟨isHost.plain, isPort.plain⟩
  have partInside : ∀ value char, char ∈ (TsRuntime.encodeGitPart value).toList →
      endsAuthority char = false := by
    intro value char member
    have notMark := TsRuntime.mem_encodeGitPart member
    simp only [List.mem_cons, not_or] at notMark
    simp [endsAuthority, notMark]
  have inside : ∀ char ∈ (TsRuntime.encodeGitPart owner).toList ++
      ':' :: (TsRuntime.encodeGitPart token).toList ++ '@' :: (host ++ port),
        endsAuthority char = false := by
    rw [List.forall_mem_append, List.forall_mem_append, List.forall_mem_cons, List.forall_mem_cons]
    exact ⟨⟨partInside owner, by decide, partInside token⟩, by decide,
      fun char member => endsAuthority_of_isPlainChar (plain char member)⟩
  have ends : ∀ char ∈ ('/' :: tail).head?, endsAuthority char = true := by
    intro char isFirst
    cases isFirst
    rfl
  have noAt : '@' ∉ host ++ port := fun member => absurd (plain '@' member) (by decide)
  have noColon : ':' ∉ (TsRuntime.encodeGitPart owner).toList := by
    intro member
    exact absurd (TsRuntime.mem_encodeGitPart member) (by decide)
  obtain ⟨isPair, isRest⟩ := credentials_append base.colon_notMem_scheme inside ends noAt
  constructor
  · rw [isPair, cutFirst_append noColon, Option.map_some, TsRuntime.decode_encodeGitPart,
      TsRuntime.decode_encodeGitPart]
  · exact isRest

include isBase hasToken in
/-- What the URL with a token names, where `new URL` shows a host and a port. -/
theorem namesRepository_of_shown {host port : List Char}
    (isHost : hosts.serialized base.host = some host)
    (isPort : shownPort base.usualPort base.port = some port) :
    NamesRepository (TsRuntime.repoURL hosts settings)
        (TsRuntime.repoURL hosts { settings with gitToken := "" }) settings.owner
        settings.gitToken ↔
      base.path = [] ∧ host = base.host ∧ port = base.port := by
  obtain ⟨plain, isPlain, plainText⟩ := repoURL_plain isBase hosts
  obtain ⟨url, isUrl, urlText⟩ := repoURL_token isBase hasToken isHost isPort
  obtain ⟨isPair, isRest⟩ := credentials_escaped base (hosts.isHost _ _ isHost)
    (isPort_of_shownPort isPort) settings.owner settings.gitToken
    (settings.owner.toList ++ '/' :: settings.project.toList)
  have sameText : base.scheme ++ ':' :: '/' :: '/' :: (host ++ port ++ pathTail settings) =
      base.text ++ pathTail settings ↔ host ++ port = base.host ++ base.port ++ base.path := by
    rw [BaseURL.text]
    simp only [List.append_assoc, List.cons_append, List.append_cancel_left_eq, List.cons.injEq,
      true_and]
    simp only [← List.append_assoc, List.append_cancel_right_eq]
  rw [← base.hostPort_eq_iff (hosts.isHost _ _ isHost) (isPort_of_shownPort isPort), ← sameText,
    NamesRepository, isUrl, isPlain]
  constructor
  · rintro ⟨_, _, ⟨⟩, ⟨⟩, -, isSame⟩
    rw [urlText, plainText] at isSame
    exact Option.some.inj (isRest.symm.trans isSame)
  · intro same
    apply Exists.intro url
    apply Exists.intro plain
    rw [urlText, plainText, ← same]
    exact ⟨rfl, rfl, isPair, isRest⟩

include isBase hasToken in
/-- The TypeScript runtime names the same repository where `new URL` shows the
whole base URL. -/
theorem typescript_namesRepository_iff :
    NamesRepository (TsRuntime.repoURL hosts settings)
        (TsRuntime.repoURL hosts { settings with gitToken := "" }) settings.owner
        settings.gitToken ↔ KeepsBase hosts base := by
  constructor
  · intro names
    have isNamed := names
    obtain ⟨url, -, isUrl, -⟩ := isNamed
    rw [TsRuntime.repoURL, if_neg hasToken, isBase, Option.bind_eq_bind,
      Option.bind_eq_some_iff] at isUrl
    obtain ⟨shown, isShown, -⟩ := isUrl
    obtain ⟨host, port, isHost, isPort⟩ := newURL_text_eq_some isShown
    obtain ⟨noPath, rfl, rfl⟩ :=
      (namesRepository_of_shown isBase hasToken isHost isPort).mp names
    exact ⟨noPath, isHost, (shownPort_eq_iff base.isPort).mp isPort⟩
  · rintro ⟨noPath, isHost, isNormal⟩
    have isPort := (shownPort_eq_iff base.isPort).mpr isNormal
    exact (namesRepository_of_shown isBase hasToken isHost isPort).mpr ⟨noPath, rfl, rfl⟩

include isBase in
theorem protoAndHost_eq :
    LuaRuntime.protoAndHost settings.vcsBaseURL =
      some (String.ofList base.scheme, String.ofList (base.host ++ base.port ++ base.path)) := by
  have nonempty : base.host ++ base.port ++ base.path ≠ [] := by
    simp [base.isHost.ne_nil]
  rw [LuaRuntime.protoAndHost, isBase, BaseURL.text]
  generalize base.host ++ base.port ++ base.path = rest at nonempty ⊢
  have isCaptured : ∀ proto : String,
      LuaRuntime.captured proto (proto.toList ++ "://".toList ++ rest) =
        some (proto, String.ofList rest) := by
    intro proto
    rw [LuaRuntime.captured, behind_append, if_neg nonempty]
  unfold BaseURL.scheme
  cases base.secure with
  | true =>
      change (LuaRuntime.captured "https" ("https".toList ++ "://".toList ++ rest)).or _ = _
      rw [isCaptured, Option.some_or]
      rfl
  | false =>
      have notSecure :
          LuaRuntime.captured "https" ("http".toList ++ "://".toList ++ rest) = none := by
        rw [LuaRuntime.captured, behind, if_neg]
        simp
      change (LuaRuntime.captured "https" ("http".toList ++ "://".toList ++ rest)).or
        (LuaRuntime.captured "http" ("http".toList ++ "://".toList ++ rest)) = _
      rw [notSecure, isCaptured, Option.none_or]
      rfl

include isBase hasToken in
theorem repoUrl_token :
    (LuaRuntime.repoUrl settings).toList = base.scheme ++ ':' :: '/' :: '/' ::
      (settings.owner.toList ++ ':' :: settings.gitToken.toList ++
        '@' :: (base.host ++ base.port ++ (base.path ++ pathTail settings))) := by
  rw [LuaRuntime.repoUrl, if_neg hasToken, protoAndHost_eq isBase]
  simp [pathTail, toString]

include isBase hasToken in
/-- The Lua runtime names the same repository where owner and token can stand in
a URL as they are. -/
theorem lua_namesRepository_iff :
    NamesRepository (some (LuaRuntime.repoUrl settings))
        (some (LuaRuntime.repoUrl { settings with gitToken := "" })) settings.owner
        settings.gitToken ↔
      KeepsCredentials settings.owner.toList settings.gitToken.toList := by
  have plainText : (LuaRuntime.repoUrl { settings with gitToken := "" }).toList =
      base.text ++ pathTail settings := by
    simp [LuaRuntime.repoUrl, pathTail, toString, RepositorySettings.owner, isBase]
  have inside : ∀ char ∈ base.host ++ base.port, endsAuthority char = false :=
    fun char member => endsAuthority_of_isPlainChar (base.plain_hostPort char member)
  have noAt : '@' ∉ base.host ++ base.port :=
    fun member => absurd (base.plain_hostPort '@' member) (by decide)
  have ends : ∀ char ∈ (base.path ++ pathTail settings).head?, endsAuthority char = true :=
    base.ends_path _
  have isPair : credentials (LuaRuntime.repoUrl settings).toList =
      some (encode settings.owner.toList, encode settings.gitToken.toList) ↔
        KeepsCredentials settings.owner.toList settings.gitToken.toList := by
    rw [repoUrl_token isBase hasToken]
    exact credentials_eq_iff base.colon_notMem_scheme inside ends noAt
  constructor
  · rintro ⟨_, _, ⟨⟩, -, isCredentials, -⟩
    exact isPair.mp isCredentials
  · intro keeps
    apply Exists.intro (LuaRuntime.repoUrl settings)
    apply Exists.intro (LuaRuntime.repoUrl { settings with gitToken := "" })
    have allInside : ∀ char ∈ settings.owner.toList ++ ':' :: settings.gitToken.toList ++
        '@' :: (base.host ++ base.port), endsAuthority char = false := by
      obtain ⟨ownerInside, tokenInside⟩ := List.forall_mem_append.mp keeps.1
      rw [List.forall_mem_append, List.forall_mem_append, List.forall_mem_cons,
        List.forall_mem_cons]
      exact ⟨⟨ownerInside, by decide, tokenInside⟩, by decide, inside⟩
    have isRest := (credentials_append base.colon_notMem_scheme allInside ends noAt).2
    rw [← repoUrl_token isBase hasToken] at isRest
    apply And.intro rfl
    apply And.intro rfl
    apply And.intro (isPair.mpr keeps)
    rw [isRest, plainText, BaseURL.text]
    simp

include isBase hasToken in
/-- A URL with a token names the repository of the URL without one: for the
TypeScript runtime where the base URL has no path and a standard form, for the
Lua runtime where the credentials need no escape. -/
theorem namesRepository_iff (hosts : HostParser) (runtime : CloningRuntime) :
    NamesRepository (runtime.repoURL hosts settings)
        (runtime.repoURL hosts { settings with gitToken := "" }) settings.owner
        settings.gitToken ↔
      runtime.KeepsParts hosts base settings := by
  cases runtime with
  | typescript => exact typescript_namesRepository_iff isBase hasToken
  | lua => exact lua_namesRepository_iff isBase hasToken

end Base

/-! ### Repositories on one host -/

def isLowerOrDot (char : Char) : Bool :=
  char.isLower || char = '.'

theorem plain_of_isLowerOrDot {char : Char} (isName : isLowerOrDot char = true) :
    isPlainChar char = true ∧ char ∉ [':', '[', ']'] := by
  have noMark : char ∉ ['/', '\\', '?', '#', '@', ':', '[', ']'] := by
    intro isMark
    simp only [List.mem_cons, List.not_mem_nil, or_false] at isMark
    rcases isMark with rfl | rfl | rfl | rfl | rfl | rfl | rfl | rfl <;>
      exact absurd isName (by decide)
  have above : 46 ≤ char.toNat := by
    rw [isLowerOrDot, Bool.or_eq_true, decide_eq_true_eq] at isName
    rcases isName with isLower | rfl
    · unfold Char.isLower at isLower
      rw [Bool.and_eq_true, decide_eq_true_eq] at isLower
      have letter : 97 ≤ char.toNat := UInt32.le_iff_toNat_le.mp isLower.1
      omega
    · decide
  have notBlank : isUrlBlank char = false := by
    rw [isUrlBlank, decide_eq_false_iff_not]
    omega
  simp only [List.mem_cons, not_or] at noMark
  simp [isPlainChar, notBlank, noMark]

/-- A host parser for names of lower-case letters, which stay as they are. -/
def lowerHosts : HostParser where
  serialized host := if host ≠ [] ∧ host.all isLowerOrDot = true then some host else none
  isHost := by
    intro host shown isShown
    split at isShown
    · next isName =>
        obtain rfl := Option.some.inj isShown
        obtain ⟨first, rest, rfl⟩ := List.exists_cons_of_ne_nil isName.1
        apply IsHost.name
        intro char member
        exact plain_of_isLowerOrDot (List.all_eq_true.mp isName.2 char member)
    · cases isShown

def exampleBase : BaseURL where
  secure := true
  host := "git.example.com".toList
  port := []
  path := []
  isHost := lowerHosts.isHost "git.example.com".toList _ rfl
  isPort := .absent
  isPath := by simp
  unspaced := by simp

/-- The same server with a path behind its host. -/
def pathBase : BaseURL :=
  { exampleBase with
    path := "/git".toList
    isPath := by simp
    unspaced := by simp [isUrlBlank] }

def shopSettings (vcsBaseURL gitToken : String) : RepositorySettings :=
  ⟨vcsBaseURL, "ashu", gitToken, "shop"⟩

theorem shop_named :
    NamesRepository
        (CloningRuntime.typescript.repoURL lowerHosts
          (shopSettings "https://git.example.com" "s3cret"))
        (CloningRuntime.typescript.repoURL lowerHosts (shopSettings "https://git.example.com" ""))
        "ashu" "s3cret" ∧
      NamesRepository
        (CloningRuntime.lua.repoURL lowerHosts (shopSettings "https://git.example.com" "s3cret"))
        (CloningRuntime.lua.repoURL lowerHosts (shopSettings "https://git.example.com" ""))
        "ashu" "s3cret" := by
  have isBase : (shopSettings "https://git.example.com" "s3cret").vcsBaseURL.toList =
      exampleBase.text := rfl
  constructor
  · apply (namesRepository_iff isBase (by decide) lowerHosts .typescript).mpr
    exact ⟨rfl, rfl, .inl rfl⟩
  · apply (namesRepository_iff isBase (by decide) lowerHosts .lua).mpr
    have inside : (("ashu".toList ++ "s3cret".toList).all fun char => !endsAuthority char) =
      true := rfl
    have plain : ∀ char ∈ "ashu".toList ++ "s3cret".toList, endsAuthority char = false := by
      intro char member
      exact Bool.not_eq_true' _ ▸ List.all_eq_true.mp inside char member
    exact ⟨plain, by decide, by decide, by decide⟩

/-- The TypeScript runtime drops the path of the base URL, and a token with a
slash ends the authority in the URL of the Lua runtime. -/
theorem repository_not_named :
    (¬ ∀ (base : BaseURL) (settings : RepositorySettings),
      settings.vcsBaseURL.toList = base.text → settings.gitToken ≠ "" →
        NamesRepository (CloningRuntime.typescript.repoURL lowerHosts settings)
          (CloningRuntime.typescript.repoURL lowerHosts { settings with gitToken := "" })
          settings.owner settings.gitToken) ∧
    ¬ ∀ (base : BaseURL) (settings : RepositorySettings),
      settings.vcsBaseURL.toList = base.text → settings.gitToken ≠ "" →
        NamesRepository (CloningRuntime.lua.repoURL lowerHosts settings)
          (CloningRuntime.lua.repoURL lowerHosts { settings with gitToken := "" })
          settings.owner settings.gitToken := by
  constructor
  · intro always
    have isBase : (shopSettings "https://git.example.com/git" "s3cret").vcsBaseURL.toList =
        pathBase.text := rfl
    have names := always _ _ isBase (by decide)
    have keeps := (typescript_namesRepository_iff isBase (by decide)).mp names
    exact absurd keeps.1 (by decide)
  · intro always
    have isBase : (shopSettings "https://git.example.com" "s3/cret").vcsBaseURL.toList =
        exampleBase.text := rfl
    have names := always _ _ isBase (by decide)
    have keeps := (lua_namesRepository_iff isBase (by decide)).mp names
    exact absurd (keeps.1 '/' (by decide)) (by decide)

end Litefunctions
