import Litefunctions.UrlTexts

/-!
# URLs of web servers

`new URL` reads the URL of a web server and shows its protocol and its host in a
standard form: the host as the host parser serialises it, and the port as a
decimal number, unless it is the usual one of the scheme.  What it shows is what
stands in the text only where host and port have that form already.
-/

namespace Litefunctions

namespace UrlText

def isUrlBlank (char : Char) : Bool :=
  char.toNat ≤ 0x20

/-- The characters of an authority that has no credentials. -/
def isPlainChar (char : Char) : Bool :=
  !isUrlBlank char && char ∉ ['/', '\\', '?', '#', '@']

/-- A name or an address in brackets. -/
inductive IsHost : List Char → Prop
  | name (first : Char) (rest : List Char)
      (plain : ∀ char ∈ first :: rest, isPlainChar char = true ∧ char ∉ [':', '[', ']']) :
      IsHost (first :: rest)
  | address (inner : List Char)
      (plain : ∀ char ∈ inner, isPlainChar char = true ∧ char ∉ ['[', ']']) :
      IsHost ('[' :: (inner ++ [']']))

/-- Nothing, or a colon and digits. -/
inductive IsPort : List Char → Prop
  | absent : IsPort []
  | number (digits : List Char) (isDigit : ∀ char ∈ digits, char.isDigit = true) :
      IsPort (':' :: digits)

/-- The host parser of URLs with its serialiser. -/
structure HostParser where
  serialized : List Char → Option (List Char)
  isHost : ∀ host shown, serialized host = some shown → IsHost shown

/-- What `new URL` makes of a text, as far as it is used. -/
structure WebURL where
  protocol : List Char
  host : List Char
  deriving DecidableEq, Repr

def isSlash (char : Char) : Bool :=
  char = '/' ∨ char = '\\'

def defaultPort? (scheme : List Char) : Option Nat :=
  if scheme = "http".toList then some 80
  else if scheme = "https".toList then some 443
  else none

/-- A host before the colon of a port; a colon in brackets belongs to the host. -/
def cutPort : Bool → List Char → List Char × List Char
  | _, [] => ([], [])
  | inside, char :: rest =>
      if char = ':' ∧ inside = false then ([], char :: rest)
      else
        let cut := cutPort (if char = '[' then true else if char = ']' then false else inside) rest
        (char :: cut.1, cut.2)

/-- A port as it is shown behind the host. -/
def shownPort (usual : Nat) : List Char → Option (List Char)
  | [] => some []
  | _ :: digits =>
      let number := Nat.ofDigitChars 10 digits 0
      if digits.all Char.isDigit = false ∨ 65535 < number then none
      else if digits = [] ∨ number = usual then some []
      else some (':' :: Nat.toDigits 10 number)

section Parser

variable (hosts : HostParser)

/-- `new URL` for the schemes of web servers; other schemes are not followed. -/
def newURL (text : List Char) : Option WebURL := do
  let cleaned := ((text.dropWhile isUrlBlank).rdropWhile isUrlBlank).filter fun char =>
    char ∉ ['\t', '\n', '\r']
  let cut ← cutFirst ':' cleaned
  let scheme := cut.1.map Char.toLower
  let usual ← defaultPort? scheme
  let authority := (cut.2.dropWhile isSlash).takeWhile fun char =>
    !isSlash char && char ∉ ['?', '#']
  let hostPort := cutPort false ((cutLast '@' authority).elim authority Prod.snd)
  if hostPort.1 = [] then none
  else
    let host ← hosts.serialized hostPort.1
    let port ← shownPort usual hostPort.2
    return ⟨scheme ++ [':'], host ++ port⟩

end Parser

/-- The URL of a web server with a host, and with a port and a path or without. -/
structure BaseURL where
  secure : Bool
  host : List Char
  port : List Char
  path : List Char
  isHost : IsHost host
  isPort : IsPort port
  isPath : ∀ char ∈ path.head?, char = '/'
  unspaced : ∀ char ∈ path, isUrlBlank char = false

namespace BaseURL

variable (base : BaseURL)

def scheme : List Char :=
  if base.secure then "https".toList else "http".toList

def usualPort : Nat :=
  if base.secure then 443 else 80

def text : List Char :=
  base.scheme ++ ':' :: '/' :: '/' :: (base.host ++ base.port ++ base.path)

end BaseURL

/-! ### Hosts and ports -/

theorem IsHost.ne_nil {host : List Char} (isHost : IsHost host) : host ≠ [] := by
  cases isHost <;> exact List.cons_ne_nil _ _

theorem IsHost.plain {host : List Char} (isHost : IsHost host) :
    ∀ char ∈ host, isPlainChar char = true := by
  cases isHost with
  | name first rest plain => exact fun char member => (plain char member).1
  | address inner plain =>
      have bracket : isPlainChar '[' = true ∧ isPlainChar ']' = true := by decide
      simp only [List.forall_mem_cons, List.forall_mem_append]
      exact ⟨bracket.1, fun char member => (plain char member).1, bracket.2, by simp⟩

theorem isPlainChar_of_isDigit {char : Char} (isDigit : char.isDigit = true) :
    isPlainChar char = true := by
  have above : 48 ≤ char.toNat := (Char.isDigit_iff_toNat.mp isDigit).1
  have notBlank : isUrlBlank char = false := by
    rw [isUrlBlank, decide_eq_false_iff_not]
    omega
  rw [isPlainChar, notBlank, Bool.not_false, Bool.true_and, decide_eq_true_eq]
  intro isMark
  simp only [List.mem_cons, List.not_mem_nil, or_false] at isMark
  rcases isMark with rfl | rfl | rfl | rfl | rfl <;> exact absurd isDigit (by decide)

theorem endsAuthority_of_isPlainChar {char : Char} (plain : isPlainChar char = true) :
    endsAuthority char = false := by
  rw [isPlainChar, Bool.and_eq_true, decide_eq_true_eq] at plain
  simp only [List.mem_cons, not_or] at plain
  simp [endsAuthority, plain.2]

theorem cutPort_append {inside : Bool} {front : List Char}
    (unmarked : ∀ char ∈ front, (char = ':' → inside = true) ∧ char ∉ ['[', ']'])
    (rest : List Char) :
    cutPort inside (front ++ rest) =
      (front ++ (cutPort inside rest).1, (cutPort inside rest).2) := by
  induction front with
  | nil => rfl
  | cons char front ih =>
      obtain ⟨⟨colon, bracket⟩, behind⟩ := List.forall_mem_cons.mp unmarked
      have notOpen : char ≠ '[' := by rintro rfl; simp at bracket
      have notClosed : char ≠ ']' := by rintro rfl; simp at bracket
      rw [List.cons_append, cutPort, if_neg (by intro ends; simp [colon ends.1] at ends),
        if_neg notOpen, if_neg notClosed, ih behind]
      rfl

theorem cutPort_host {host port : List Char} (isHost : IsHost host)
    (isPort : ∀ char ∈ port.head?, char = ':') : cutPort false (host ++ port) = (host, port) := by
  have stops : cutPort false port = ([], port) := by
    cases port with
    | nil => rfl
    | cons char rest => rw [cutPort, isPort char rfl, if_pos ⟨rfl, rfl⟩]
  cases isHost with
  | name first rest plain =>
      rw [cutPort_append, stops, List.append_nil]
      intro char member
      have unmarked := (plain char member).2
      simp only [List.mem_cons, not_or] at unmarked
      exact ⟨fun isColon => absurd isColon unmarked.1, by simp [unmarked.2]⟩
  | address inner plain =>
      have unmarked : ∀ char ∈ inner, (char = ':' → true = true) ∧ char ∉ ['[', ']'] :=
        fun char member => ⟨fun _ => rfl, (plain char member).2⟩
      have closing : cutPort true (']' :: port) = ([']'], port) := by
        rw [cutPort, if_neg (by simp), if_neg (by decide), if_pos rfl, stops]
      rw [List.cons_append, cutPort, if_neg (by simp), if_pos rfl, List.append_assoc,
        cutPort_append unmarked, List.singleton_append, closing]

theorem IsPort.head? {port : List Char} (isPort : IsPort port) :
    ∀ char ∈ port.head?, char = ':' := by
  intro char isFirst
  cases isPort with
  | absent => cases isFirst
  | number digits isDigit =>
      cases isFirst
      rfl

theorem IsPort.plain {port : List Char} (isPort : IsPort port) :
    ∀ char ∈ port, isPlainChar char = true := by
  cases isPort with
  | absent => simp
  | number digits isDigit =>
      rw [List.forall_mem_cons]
      exact ⟨by decide, fun char member => isPlainChar_of_isDigit (isDigit char member)⟩

/-- Host and port can be told from the text of both. -/
theorem append_port_inj {host otherHost port otherPort : List Char} (isHost : IsHost host)
    (isOtherHost : IsHost otherHost) (isPort : IsPort port) (isOtherPort : IsPort otherPort) :
    host ++ port = otherHost ++ otherPort ↔ host = otherHost ∧ port = otherPort := by
  constructor
  · intro same
    have cuts := congrArg (cutPort false) same
    rw [cutPort_host isHost isPort.head?, cutPort_host isOtherHost isOtherPort.head?,
      Prod.mk.injEq] at cuts
    exact cuts
  · rintro ⟨rfl, rfl⟩
    rfl

theorem isPort_of_shownPort {usual : Nat} {port shown : List Char}
    (isShown : shownPort usual port = some shown) : IsPort shown := by
  cases port with
  | nil =>
      cases isShown
      exact .absent
  | cons mark digits =>
      rw [shownPort] at isShown
      split at isShown
      · cases isShown
      · split at isShown
        · cases isShown
          exact .absent
        · cases isShown
          apply IsPort.number
          intro char member
          exact Nat.isDigit_of_mem_toDigits (by decide) (by decide) member

/-- The numbers that are shown as they stand in a text. -/
def IsNormalPort (usual : Nat) (port : List Char) : Prop :=
  port = [] ∨ ∃ number ≤ 65535, number ≠ usual ∧ port = ':' :: Nat.toDigits 10 number

theorem shownPort_eq_iff {usual : Nat} {port : List Char} (isPort : IsPort port) :
    shownPort usual port = some port ↔ IsNormalPort usual port := by
  cases isPort with
  | absent => exact iff_of_true rfl (.inl rfl)
  | number digits allDigits =>
      have isNumber : digits.all Char.isDigit = true := List.all_eq_true.mpr allDigits
      rw [shownPort, isNumber]
      constructor
      · intro isShown
        split at isShown
        · cases isShown
        · next small =>
            split at isShown
            · cases isShown
            · next shown =>
                rw [not_or] at small shown
                have same := (List.cons.inj (Option.some.inj isShown)).2
                exact .inr ⟨_, Nat.not_lt.mp small.2, shown.2, by rw [same]⟩
      · rintro (isEmpty | ⟨number, small, notUsual, same⟩)
        · cases isEmpty
        · obtain rfl := (List.cons.inj same).2
          rw [Nat.ofDigitChars_ten_toDigits, if_neg, if_neg]
          · rw [not_or]
            exact ⟨Nat.toDigits_ne_nil, notUsual⟩
          · rw [not_or]
            exact ⟨by simp, Nat.not_lt.mpr small⟩

/-! ### Texts of base URLs -/

theorem cleaned_eq_self {text : List Char} (unspaced : ∀ char ∈ text, isUrlBlank char = false) :
    (((text.dropWhile isUrlBlank).rdropWhile isUrlBlank).filter fun char =>
      char ∉ ['\t', '\n', '\r']) = text := by
  have front : text.dropWhile isUrlBlank = text := by
    rw [List.dropWhile_eq_self_iff]
    intro nonempty
    simp [unspaced _ (List.getElem_mem nonempty)]
  have back : text.rdropWhile isUrlBlank = text := by
    rw [List.rdropWhile_eq_self_iff]
    intro nonempty
    simp [unspaced _ (List.getLast_mem nonempty)]
  rw [front, back, List.filter_eq_self]
  intro char member
  have notBlank := unspaced char member
  rw [decide_eq_true_eq]
  intro isTab
  simp only [List.mem_cons, List.not_mem_nil, or_false] at isTab
  rcases isTab with rfl | rfl | rfl <;> exact absurd notBlank (by decide)

namespace BaseURL

variable (base : BaseURL)

theorem colon_notMem_scheme : ':' ∉ base.scheme := by
  unfold scheme
  cases base.secure <;> decide

theorem defaultPort?_scheme : defaultPort? base.scheme = some base.usualPort := by
  unfold scheme usualPort
  cases base.secure <;> rfl

theorem map_toLower_scheme : base.scheme.map Char.toLower = base.scheme := by
  unfold scheme
  cases base.secure <;> rfl

/-- A path ends the authority, and so does what is put behind the URL. -/
theorem ends_path (tail : List Char) :
    ∀ char ∈ (base.path ++ '/' :: tail).head?, endsAuthority char = true := by
  intro char isFirst
  cases isPath : base.path with
  | nil =>
      rw [isPath] at isFirst
      cases isFirst
      rfl
  | cons first path =>
      rw [isPath] at isFirst
      cases isFirst
      rw [base.isPath char (by rw [isPath]; rfl)]
      rfl

theorem plain_hostPort : ∀ char ∈ base.host ++ base.port, isPlainChar char = true := by
  rw [List.forall_mem_append]
  exact ⟨base.isHost.plain, base.isPort.plain⟩

/-- A host and a port are those of the URL with no path behind them. -/
theorem hostPort_eq_iff {host port : List Char} (isHost : IsHost host) (isPort : IsPort port) :
    host ++ port = base.host ++ base.port ++ base.path ↔
      base.path = [] ∧ host = base.host ∧ port = base.port := by
  cases isPath : base.path with
  | nil =>
      rw [List.append_nil, append_port_inj isHost base.isHost isPort base.isPort]
      exact (and_iff_right rfl).symm
  | cons char path =>
      apply iff_of_false _ (by simp)
      intro same
      have isSlash : char = '/' := base.isPath char (by rw [isPath]; rfl)
      have member : '/' ∈ host ++ port := by
        rw [same, isSlash]
        exact List.mem_append_right _ List.mem_cons_self
      have plain : ∀ char ∈ host ++ port, isPlainChar char = true := by
        rw [List.forall_mem_append]
        exact ⟨isHost.plain, isPort.plain⟩
      exact absurd (plain '/' member) (by decide)

end BaseURL

theorem unspaced_text (base : BaseURL) : ∀ char ∈ base.text, isUrlBlank char = false := by
  have plainUnspaced : ∀ char ∈ base.host ++ base.port, isUrlBlank char = false := by
    intro char member
    have plain := base.plain_hostPort char member
    rw [isPlainChar, Bool.and_eq_true] at plain
    simpa using plain.1
  have schemeUnspaced : (base.scheme.all fun char => !isUrlBlank char) = true := by
    unfold BaseURL.scheme
    cases base.secure <;> rfl
  have marks : isUrlBlank ':' = false ∧ isUrlBlank '/' = false := by decide
  rw [BaseURL.text, List.forall_mem_append, List.forall_mem_cons, List.forall_mem_cons,
    List.forall_mem_cons, List.forall_mem_append]
  exact ⟨by simpa using schemeUnspaced, marks.1, marks.2, marks.2, plainUnspaced, base.unspaced⟩

/-- What `new URL` shows of the URL of a web server. -/
theorem newURL_text (hosts : HostParser) (base : BaseURL) :
    newURL hosts base.text = do
      let host ← hosts.serialized base.host
      let port ← shownPort base.usualPort base.port
      return ⟨base.scheme ++ [':'], host ++ port⟩ := by
  have plainInside : ∀ char, isPlainChar char = true →
      (!isSlash char && decide (char ∉ ['?', '#'])) = true := by
    intro char plain
    rw [isPlainChar, Bool.and_eq_true, decide_eq_true_eq] at plain
    simp only [List.mem_cons, not_or] at plain
    simp [isSlash, plain.2]
  have slashes : ('/' :: '/' :: (base.host ++ base.port ++ base.path)).dropWhile isSlash =
      base.host ++ base.port ++ base.path := by
    obtain ⟨first, rest, isHost⟩ := List.exists_cons_of_ne_nil base.isHost.ne_nil
    have noSlash : isSlash first = false := by
      have inside := plainInside first (base.isHost.plain first (by simp [isHost]))
      rw [Bool.and_eq_true] at inside
      simpa using inside.1
    rw [isHost, List.dropWhile_cons_of_pos rfl, List.dropWhile_cons_of_pos rfl, List.cons_append,
      List.cons_append, List.dropWhile_cons_of_neg (by rw [noSlash]; exact Bool.false_ne_true)]
  have authority : ((base.host ++ base.port ++ base.path).takeWhile fun char =>
      !isSlash char && char ∉ ['?', '#']) = base.host ++ base.port := by
    rw [List.takeWhile_append_of_pos fun char member =>
      plainInside char (base.plain_hostPort char member)]
    cases isPath : base.path with
    | nil => simp
    | cons char path =>
        rw [base.isPath char (by rw [isPath]; rfl)]
        simp [isSlash]
  have noAt : '@' ∉ base.host ++ base.port := by
    intro member
    exact absurd (base.plain_hostPort '@' member) (by decide)
  rw [newURL, cleaned_eq_self (unspaced_text base), BaseURL.text,
    cutFirst_append base.colon_notMem_scheme, Option.bind_eq_bind, Option.bind_some]
  simp only [base.defaultPort?_scheme, base.map_toLower_scheme, slashes, authority,
    cutLast_eq_none noAt, Option.elim_none, cutPort_host base.isHost base.isPort.head?,
    base.isHost.ne_nil, if_false]
  rfl

theorem newURL_text_eq_some {hosts : HostParser} {base : BaseURL} {url : WebURL}
    (isURL : newURL hosts base.text = some url) :
    ∃ host port, hosts.serialized base.host = some host ∧
      shownPort base.usualPort base.port = some port := by
  rw [newURL_text, Option.bind_eq_bind, Option.bind_eq_some_iff] at isURL
  obtain ⟨host, isHost, isURL⟩ := isURL
  rw [Option.bind_eq_some_iff] at isURL
  obtain ⟨port, isPort, -⟩ := isURL
  exact ⟨host, port, isHost, isPort⟩

end UrlText

end Litefunctions
