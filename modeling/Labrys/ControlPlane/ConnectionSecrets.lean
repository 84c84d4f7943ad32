import Labrys.ControlPlane.Daemon
import Labrys.Foundations.Splitting

/-! # What is read of a connection string

The configuration and the provisioner each cut the password out of the admin URL to redact it, and the
provisioner the host and the port it hands out with a minted credential. All cut at the first or at the
last of a separator, wherever in the URL it stands.

* `adminHostPort`, `adminPasswordOf`, `registered`: what is cut out, and what of it is redacted.
* `PostgresUrl`: the URLs by their parts.
* `connection_secrets_iff`: the URLs of which the parts are read. -/

namespace Labrys.ControlPlane
open Foundations Labrys.Core
set_option autoImplicit false

/-! ## Reading a connection string -/

/-- `parse::<u16>`: decimal digits, with a plus sign or without one. -/
def parseU16 (text : List Char) : Option UInt16 :=
  let digits := if text.head? = some '+' then text.tail else text
  if digits ≠ [] ∧ digits.all Char.isDigit = true ∧ Nat.ofDigitChars 10 digits 0 < UInt16.size then
    some (UInt16.ofNat (Nat.ofDigitChars 10 digits 0))
  else none

def adminHostPort (url : String) : String × UInt16 :=
  let afterScheme := ((splitText "://".toList url.toList)[1]?).getD []
  let authorityHost := ((afterScheme.splitOn '@').getLast?).getD []
  let hostPort := (authorityHost.splitOn '/').headD []
  let parts := hostPort.splitOn ':'
  (String.ofList (parts.headD "localhost".toList), (parts[1]?.bind parseU16).getD 5432)

/-- The provisioner reads the password as the configuration does. -/
def adminPasswordOf (url : String) : Option String := urlPassword url

/-- What a provisioner that has minted no credential may show in a diagnostic. -/
def credentialSecrets (url : String) : List String :=
  ((adminPasswordOf url).filter fun password => password ≠ "").toList

/-- What the provider runtime registers of the connection string. -/
def registered (url : String) : List String :=
  ((urlPassword url).toList.filter fun secret => !isBlank secret.toList) ++ credentialSecrets url

/-! ## Connection strings by their parts -/

/-- A user with or without a password, in the characters the two may have. -/
structure UserInfo where
  user : List Char
  password : Option (List Char)
  userNoColon : ':' ∉ user
  userNoAt : '@' ∉ user
  userNoSlash : '/' ∉ user
  passwordNoAt : ∀ text ∈ password, '@' ∉ text
  passwordNoSlash : ∀ text ∈ password, '/' ∉ text

def UserInfo.text (info : UserInfo) : List Char :=
  info.user ++ info.password.elim [] (':' :: ·)

/-- `postgres://[user[:password]@]host[:port]/database`, where a host with a colon is in brackets. -/
structure PostgresUrl where
  userInfo : Option UserInfo
  host : List Char
  port : Option UInt16
  database : List Char
  hostNoAt : '@' ∉ host
  hostNoSlash : '/' ∉ host
  bracketed : ':' ∈ host → ∃ address, host = '[' :: (address ++ [']'])

namespace PostgresUrl
variable (url : PostgresUrl)

def hostPort : List Char :=
  url.host ++ url.port.elim [] fun port => ':' :: (toString port.toNat).toList

def authority : List Char :=
  (url.userInfo.elim [] fun info => info.text ++ ['@']) ++ url.hostPort

def text : String := String.ofList ("postgres://".toList ++ (url.authority ++ '/' :: url.database))

/-- The password, unless it is empty. -/
def password : Option (List Char) :=
  (url.userInfo.bind UserInfo.password).filter fun password => password ≠ []

/-- The database up to a second `://`, which nothing that is read reaches over. -/
def shownDatabase : List Char := (splitText "://".toList url.database).headD []

/-- A password is read whole, with the host and the port; without one, nothing is registered. -/
structure Recognised : Prop where
  password : ∀ password ∈ url.password, urlPassword url.text = some (String.ofList password) ∧
    adminPasswordOf url.text = some (String.ofList password)
  hostPort : url.password ≠ none →
    adminHostPort url.text = (String.ofList url.host, url.port.getD 5432)
  silent : url.password = none → registered url.text = []

end PostgresUrl

/-- Nothing stands between the first colon of a text and the next. -/
def BareColon (text : List Char) : Prop := ∀ piece ∈ (text.splitOn ':')[1]?, piece = []

/-- The text is the host alone, for the default port, or the host with a colon and the port. -/
def NamesHost (host : List Char) (port : UInt16) (text : List Char) : Prop :=
  text = host ∧ port = 5432 ∨
    ∃ behind, text = host ++ ':' :: behind ∧ (parseU16 (upTo ':' behind)).getD 5432 = port

/-- What stands behind the last `@` of a text, up to the next slash. -/
def lastAuthority (text : List Char) : List Char :=
  upTo '/' (((text.splitOn '@').getLast?).getD [])

namespace PostgresUrl

/-- A password and its host have no colon, and a database with an `@` names the host again. Without a
user the host has no port, and the first colon of the database, or that of a host in brackets, has no
text before the next. -/
structure Clear (url : PostgresUrl) : Prop where
  password : ∀ password ∈ url.password, ':' ∉ password
  host : url.password ≠ none → ':' ∉ url.host
  database : url.password ≠ none → '@' ∈ url.shownDatabase →
    NamesHost url.host (url.port.getD 5432) (lastAuthority url.shownDatabase)
  port : url.userInfo = none → ':' ∉ url.host → url.port = none
  pathColon : url.userInfo = none → ':' ∉ url.host → BareColon (upTo '@' url.shownDatabase)
  hostColon : url.userInfo = none → ':' ∈ url.host → BareColon url.host

end PostgresUrl

/-! ## Ports -/

theorem notMem_port {c : Char} (hc : c.isDigit = false) (port : UInt16) :
    c ∉ (toString port.toNat).toList := by
  intro hmem
  rw [isDigit_of_mem_toString_nat hmem] at hc
  cases hc

theorem port_ne_nil (port : UInt16) : (toString port.toNat).toList ≠ [] := by
  rw [Nat.toString_eq_ofList_toDigits, String.toList_ofList]
  exact Nat.toDigits_ne_nil

/-- A port that is written is read back. -/
theorem parseU16_port (port : UInt16) : parseU16 (toString port.toNat).toList = some port := by
  have hplus : ¬ (toString port.toNat).toList.head? = some '+' :=
    fun h => notMem_port (by decide) port (List.mem_of_mem_head? h)
  have hdigits : (toString port.toNat).toList.all Char.isDigit = true :=
    List.all_eq_true.mpr fun c hc => isDigit_of_mem_toString_nat hc
  have hvalue : Nat.ofDigitChars 10 (toString port.toNat).toList 0 = port.toNat := by
    rw [Nat.toString_eq_ofList_toDigits, String.toList_ofList, Nat.ofDigitChars_ten_toDigits]
  unfold parseU16
  rw [if_neg hplus]
  dsimp only
  rw [hvalue, if_pos ⟨port_ne_nil port, hdigits, port.toNat_lt_size⟩, UInt16.ofNat_toNat]

/-! ## Pieces of an authority -/

theorem urlPassword_of_shown {url : String} {shown : List Char}
    (h : (splitText "://".toList url.toList)[1]? = some shown) :
    urlPassword url = (((upTo '@' shown).splitOn ':')[1]?.filter fun piece => piece ≠ []).map
      String.ofList := by
  unfold urlPassword
  rw [h, Option.bind_eq_bind, Option.bind_some, headD_splitOn]
  dsimp only
  cases ((upTo '@' shown).splitOn ':')[1]? with
  | none => rfl
  | some piece =>
    by_cases hpiece : piece = []
    · simp [hpiece]
    · simp [hpiece]

theorem urlPassword_eq_none_iff {url : String} {shown : List Char}
    (h : (splitText "://".toList url.toList)[1]? = some shown) :
    urlPassword url = none ↔ BareColon (upTo '@' shown) := by
  rw [urlPassword_of_shown h, Option.map_eq_none_iff, Option.filter_eq_none_iff]
  simp [BareColon]

theorem urlPassword_ne_empty (url : String) : urlPassword url ≠ some "" := by
  unfold urlPassword
  intro h
  obtain ⟨shown, -, h⟩ := Option.bind_eq_some_iff.mp h
  obtain ⟨piece, -, h⟩ := Option.bind_eq_some_iff.mp h
  split at h
  · cases h
  next hpiece => exact hpiece (String.ofList_inj.mp (Option.some.inj h))

theorem credentialSecrets_eq (url : String) :
    credentialSecrets url = (urlPassword url).toList := by
  unfold credentialSecrets adminPasswordOf
  cases hpassword : urlPassword url with
  | none => rfl
  | some password =>
    have hne : decide (password ≠ "") = true := by
      refine decide_eq_true ?_
      rintro rfl
      exact urlPassword_ne_empty url hpassword
    rw [Option.filter_eq_some_iff.mpr ⟨(rfl : some password = some password), hne⟩]

theorem registered_eq_nil_iff (url : String) : registered url = [] ↔ urlPassword url = none := by
  unfold registered
  rw [credentialSecrets_eq]
  cases urlPassword url with
  | none => simp
  | some password => simp

/-- A configuration that has no other secret registers those of its connection string. -/
theorem Config.runtimeSecrets_eq {config : Config} {url : String}
    (hurl : config.providerPostgresUrl = some url)
    (hregistry : config.providerRegistryPassword = none) :
    config.runtimeSecrets = registered url := by
  unfold Config.runtimeSecrets Config.providerSecretValues registered
  rw [hurl, hregistry, Option.bind_some, Option.toList_none, List.append_nil,
    credentialSecrets_eq]

theorem adminHostPort_of_shown {url : String} {shown : List Char}
    (h : (splitText "://".toList url.toList)[1]? = some shown) :
    adminHostPort url = (String.ofList (upTo ':' (lastAuthority shown)),
      (((lastAuthority shown).splitOn ':')[1]?.bind parseU16).getD 5432) := by
  unfold adminHostPort
  rw [h]
  dsimp only [Option.getD_some]
  rw [headD_splitOn, headD_splitOn]
  rfl

theorem namesHost_iff {host text : List Char} {port : UInt16} (hhost : ':' ∉ host) :
    upTo ':' text = host ∧ ((text.splitOn ':')[1]?.bind parseU16).getD 5432 = port ↔
      NamesHost host port text := by
  by_cases hmem : ':' ∈ text
  · obtain ⟨front, behind, rfl, hfront⟩ := List.eq_append_cons_of_mem hmem
    rw [upTo_append_cons hfront, second_splitOn hfront, Option.bind_some]
    constructor
    · rintro ⟨rfl, hport⟩
      exact .inr ⟨behind, rfl, hport⟩
    · rintro (⟨rfl, -⟩ | ⟨behind', htext, hport⟩)
      · exact absurd hmem hhost
      · have hsame : front = host := by
          rw [← upTo_append_cons hfront behind, htext, upTo_append_cons hhost]
        subst hsame
        obtain rfl : behind = behind' := (List.cons.inj (List.append_cancel_left htext)).2
        exact ⟨rfl, hport⟩
  · rw [upTo_eq_self_iff.mpr hmem, second_splitOn_of_notMem hmem]
    constructor
    · rintro ⟨rfl, hport⟩
      exact .inl ⟨rfl, hport.symm⟩
    · rintro (⟨rfl, rfl⟩ | ⟨behind, rfl, -⟩)
      · exact ⟨rfl, rfl⟩
      · exact absurd (by simp) hmem

theorem bareColon_append {front : List Char} (hfront : ':' ∉ front) (rest : List Char) :
    BareColon (front ++ rest) ↔ BareColon rest := by
  unfold BareColon
  rw [second_splitOn_append hfront]

theorem bareColon_append_cons {front : List Char} (hfront : ':' ∉ front) (rest : List Char) :
    BareColon (front ++ ':' :: rest) ↔ upTo ':' rest = [] := by
  unfold BareColon
  rw [second_splitOn hfront]
  simp

theorem lastAuthority_append (front : List Char) {text : List Char} (h : '@' ∈ text) :
    lastAuthority (front ++ text) = lastAuthority text := by
  unfold lastAuthority
  rw [last_splitOn_append front h]

theorem lastAuthority_append_cons (front : List Char) {authority path : List Char}
    (hat : '@' ∉ authority ++ '/' :: path) (hslash : '/' ∉ authority) :
    lastAuthority (front ++ '@' :: (authority ++ '/' :: path)) = authority := by
  unfold lastAuthority
  rw [last_splitOn front hat, Option.getD_some, upTo_append_cons hslash]

/-! ## The text of a URL -/

theorem UserInfo.notMem_text (info : UserInfo) {c : Char} (huser : c ∉ info.user)
    (hpassword : ∀ text ∈ info.password, c ∉ text) (hcolon : c ≠ ':') : c ∉ info.text := by
  unfold UserInfo.text
  cases hinfo : info.password with
  | none => simpa using huser
  | some password =>
    have hplain := hpassword password hinfo
    simp [huser, hcolon, hplain]

namespace PostgresUrl
variable {url : PostgresUrl}

theorem notMem_hostPort {c : Char} (hhost : c ∉ url.host) (hcolon : c ≠ ':')
    (hdigit : c.isDigit = false) : c ∉ url.hostPort := by
  unfold hostPort
  cases url.port with
  | none => simpa using hhost
  | some port =>
    intro hmem
    obtain hmem | hmem := List.mem_append.mp hmem
    · exact hhost hmem
    · obtain rfl | hmem := List.mem_cons.mp hmem
      · exact hcolon rfl
      · exact notMem_port hdigit port hmem

theorem slash_notMem_hostPort (url : PostgresUrl) : '/' ∉ url.hostPort :=
  notMem_hostPort url.hostNoSlash (by decide) (by decide)

theorem at_notMem_hostPort (url : PostgresUrl) : '@' ∉ url.hostPort :=
  notMem_hostPort url.hostNoAt (by decide) (by decide)

theorem getLast_host (url : PostgresUrl) : url.host.getLast? ≠ some ':' := by
  intro hlast
  obtain ⟨address, haddress⟩ := url.bracketed (List.mem_of_getLast? hlast)
  rw [haddress, ← List.cons_append, List.getLast?_concat] at hlast
  cases hlast

theorem getLast_hostPort (url : PostgresUrl) : url.hostPort.getLast? ≠ some ':' := by
  unfold hostPort
  cases url.port with
  | none =>
    rw [Option.elim_none, List.append_nil]
    exact url.getLast_host
  | some port =>
    have hne : (toString port.toNat).toList ≠ [] := port_ne_nil port
    rw [Option.elim_some, List.getLast?_append_of_ne_nil _ (List.cons_ne_nil _ _),
      ← List.singleton_append, List.getLast?_append_of_ne_nil _ hne]
    exact fun hlast => notMem_port (by decide) port (List.mem_of_getLast? hlast)

theorem authority_of_info {info : UserInfo} (h : url.userInfo = some info) :
    url.authority = info.text ++ '@' :: url.hostPort := by
  unfold authority
  rw [h, Option.elim_some, List.append_assoc, List.singleton_append]

theorem authority_of_none (h : url.userInfo = none) : url.authority = url.hostPort := by
  unfold authority
  rw [h, Option.elim_none, List.nil_append]

theorem slash_notMem_authority (url : PostgresUrl) : '/' ∉ url.authority := by
  cases hinfo : url.userInfo with
  | none =>
    rw [authority_of_none hinfo]
    exact url.slash_notMem_hostPort
  | some info =>
    rw [authority_of_info hinfo, List.mem_append, List.mem_cons]
    rintro (hslash | hslash | hslash)
    · exact info.notMem_text info.userNoSlash info.passwordNoSlash (by decide) hslash
    · exact absurd hslash (by decide)
    · exact url.slash_notMem_hostPort hslash

theorem getLast_authority (url : PostgresUrl) : url.authority.getLast? ≠ some ':' := by
  cases hinfo : url.userInfo with
  | none =>
    rw [authority_of_none hinfo]
    exact url.getLast_hostPort
  | some info =>
    rw [authority_of_info hinfo, List.getLast?_append_of_ne_nil _ (List.cons_ne_nil _ _),
      List.getLast?_cons]
    intro hlast
    cases hport : url.hostPort.getLast? with
    | none =>
      rw [hport] at hlast
      exact absurd hlast (by decide)
    | some c =>
      rw [hport] at hlast
      rw [Option.getD_some] at hlast
      exact url.getLast_hostPort (hport.trans hlast)

theorem separator_eq : "://".toList = [':', '/', '/'] := rfl

/-- No `://` begins in the authority, which has no slash and does not end in a colon. -/
theorem apart_authority (url : PostgresUrl) (rest : List Char) :
    Apart "://".toList (url.authority ++ ['/']) rest := by
  rintro a c b hsplit ⟨tail, htail⟩
  rw [separator_eq] at htail
  obtain ⟨rfl, hbehind⟩ := List.cons.inj htail
  obtain rfl | ⟨front, slash, rfl⟩ := List.eq_nil_or_concat b
  · -- The separator would begin at the slash behind the authority.
    have hlast := congrArg List.getLast? hsplit
    rw [List.getLast?_concat, List.getLast?_concat] at hlast
    exact absurd (Option.some.inj hlast) (by decide)
  · rw [List.concat_eq_append] at hsplit hbehind
    rw [← List.cons_append, ← List.append_assoc] at hsplit
    obtain ⟨hauthority, -⟩ := List.append_inj' hsplit rfl
    cases front with
    | nil =>
      refine url.getLast_authority ?_
      rw [hauthority, List.getLast?_concat]
    | cons d front =>
      obtain ⟨rfl, -⟩ := List.cons.inj hbehind
      refine url.slash_notMem_authority ?_
      rw [hauthority]
      simp

theorem second_text (url : PostgresUrl) : (splitText "://".toList url.text.toList)[1]? =
    some (url.authority ++ '/' :: url.shownDatabase) := by
  have hscheme : Apart "://".toList "postgres".toList
      ("://".toList ++ ((url.authority ++ ['/']) ++ url.database)) := by
    rintro a c b hsplit ⟨tail, htail⟩
    rw [separator_eq] at htail
    obtain ⟨rfl, -⟩ := List.cons.inj htail
    have hmem : ':' ∈ "postgres".toList := by
      rw [hsplit]
      simp
    exact absurd hmem (by decide)
  have hsecond := second_splitText (by decide) hscheme (url.apart_authority url.database)
  unfold text
  rw [String.toList_ofList]
  simpa [shownDatabase] using hsecond

/-! ## The password -/

theorem urlPassword_of_info {info : UserInfo} (hinfo : url.userInfo = some info) :
    urlPassword url.text = ((info.text.splitOn ':')[1]?.filter fun piece => piece ≠ []).map
      String.ofList := by
  have hat : '@' ∉ info.text := info.notMem_text info.userNoAt info.passwordNoAt (by decide)
  rw [urlPassword_of_shown url.second_text, authority_of_info hinfo, List.append_assoc,
    List.cons_append, upTo_append_cons hat]

/-- The password is read up to its first colon. -/
theorem urlPassword_of_password {password : List Char} (h : password ∈ url.password) :
    urlPassword url.text =
      ((some (upTo ':' password)).filter fun piece => piece ≠ []).map String.ofList := by
  obtain ⟨hpassword, -⟩ := Option.filter_eq_some_iff.mp h
  obtain ⟨info, hinfo, hpassword⟩ := Option.bind_eq_some_iff.mp hpassword
  have htext : info.text = info.user ++ ':' :: password := by
    rw [UserInfo.text, hpassword, Option.elim_some]
  rw [urlPassword_of_info hinfo, htext, second_splitOn info.userNoColon]

theorem urlPassword_iff {password : List Char} (h : password ∈ url.password) :
    urlPassword url.text = some (String.ofList password) ↔ ':' ∉ password := by
  rw [urlPassword_of_password h]
  constructor
  · intro hread
    obtain ⟨piece, hpiece, hsame⟩ := Option.map_eq_some_iff.mp hread
    obtain ⟨hpiece, -⟩ := Option.filter_eq_some_iff.mp hpiece
    rw [String.ofList_inj, ← Option.some.inj hpiece] at hsame
    exact upTo_eq_self_iff.mp hsame
  · intro hcolon
    obtain ⟨-, hne⟩ := Option.filter_eq_some_iff.mp h
    rw [upTo_eq_self_iff.mpr hcolon,
      Option.filter_eq_some_iff.mpr ⟨(rfl : some password = some password), hne⟩, Option.map_some]

/-- A user without a password has nothing registered. -/
theorem urlPassword_of_user {info : UserInfo} (hinfo : url.userInfo = some info)
    (h : url.password = none) : urlPassword url.text = none := by
  rw [urlPassword_of_info hinfo, Option.map_eq_none_iff]
  rw [password, hinfo, Option.bind_some] at h
  cases hpassword : info.password with
  | none =>
    have hcolon : ':' ∉ info.text := by
      rw [UserInfo.text, hpassword, Option.elim_none, List.append_nil]
      exact info.userNoColon
    rw [second_splitOn_of_notMem hcolon, Option.filter_none]
  | some password =>
    have hempty : password = [] := by simpa [hpassword] using h
    rw [UserInfo.text, hpassword, Option.elim_some, second_splitOn info.userNoColon, hempty]
    rfl

/-! ## Without a user -/

theorem urlPassword_of_none (hinfo : url.userInfo = none) : urlPassword url.text = none ↔
    BareColon (url.hostPort ++ '/' :: upTo '@' url.shownDatabase) := by
  have hat : '@' ∉ url.hostPort ++ ['/'] := by
    rw [List.mem_append, not_or]
    exact ⟨url.at_notMem_hostPort, by decide⟩
  have hshown : upTo '@' (url.hostPort ++ '/' :: url.shownDatabase) =
      url.hostPort ++ '/' :: upTo '@' url.shownDatabase := by
    rw [List.append_cons, upTo_append hat, ← List.append_cons]
  rw [urlPassword_eq_none_iff url.second_text, authority_of_none hinfo, hshown]

theorem bareColon_port (h : ':' ∉ url.host) (path : List Char) :
    BareColon (url.hostPort ++ '/' :: path) ↔ url.port = none ∧ BareColon path := by
  rw [hostPort, List.append_assoc, bareColon_append h]
  cases url.port with
  | none =>
    rw [Option.elim_none, List.nil_append, ← List.singleton_append, bareColon_append (by decide)]
    simp
  | some port =>
    -- The port stands behind the first colon.
    rw [Option.elim_some, List.cons_append, ← List.nil_append (':' :: _),
      bareColon_append_cons (by simp), upTo_append (notMem_port (by decide) port),
      List.append_eq_nil_iff]
    constructor
    · exact fun h => absurd h.1 (port_ne_nil port)
    · exact fun h => absurd h.1 (by simp)

/-- Of a host in brackets nothing is read behind its end. -/
theorem bareColon_host (h : ':' ∈ url.host) (behind : List Char) :
    BareColon (url.host ++ behind) ↔ BareColon url.host := by
  obtain ⟨front, rest, hhost, hfront⟩ := List.eq_append_cons_of_mem h
  have hlast := url.getLast_host
  rw [hhost] at hlast ⊢
  rw [List.append_assoc, List.cons_append, bareColon_append_cons hfront,
    bareColon_append_cons hfront]
  cases rest with
  | nil => exact absurd (List.getLast?_concat) hlast
  | cons c rest =>
    by_cases hc : c = ':'
    · simp [upTo, hc]
    · simp [upTo, hc]

theorem urlPassword_of_none_iff (hinfo : url.userInfo = none) : urlPassword url.text = none ↔
    (':' ∉ url.host → url.port = none ∧ BareColon (upTo '@' url.shownDatabase)) ∧
      (':' ∈ url.host → BareColon url.host) := by
  rw [urlPassword_of_none hinfo]
  by_cases hcolon : ':' ∈ url.host
  · have hhost : BareColon (url.hostPort ++ '/' :: upTo '@' url.shownDatabase) ↔
        BareColon url.host := by
      rw [hostPort, List.append_assoc, bareColon_host hcolon]
    simp [hhost, hcolon]
  · simp [bareColon_port hcolon, hcolon]

/-! ## The host and the port -/

theorem namesHost_hostPort (url : PostgresUrl) :
    NamesHost url.host (url.port.getD 5432) url.hostPort := by
  unfold hostPort
  cases url.port with
  | none => exact .inl ⟨List.append_nil _, rfl⟩
  | some port =>
    refine .inr ⟨_, rfl, ?_⟩
    rw [upTo_eq_self_iff.mpr (notMem_port (by decide) port), parseU16_port, Option.getD_some]

theorem lastAuthority_shown {info : UserInfo} (hinfo : url.userInfo = some info) :
    lastAuthority (url.authority ++ '/' :: url.shownDatabase) =
      if '@' ∈ url.shownDatabase then lastAuthority url.shownDatabase else url.hostPort := by
  split
  next hmem => rw [List.append_cons, lastAuthority_append _ hmem]
  next hnone =>
    have hat : '@' ∉ url.hostPort ++ '/' :: url.shownDatabase := by
      rw [List.mem_append, List.mem_cons]
      rintro (hat | hat | hat)
      · exact url.at_notMem_hostPort hat
      · exact absurd hat (by decide)
      · exact hnone hat
    rw [authority_of_info hinfo, List.append_assoc, List.cons_append,
      lastAuthority_append_cons _ hat url.slash_notMem_hostPort]

theorem adminHostPort_iff {info : UserInfo} (hinfo : url.userInfo = some info) :
    adminHostPort url.text = (String.ofList url.host, url.port.getD 5432) ↔
      ':' ∉ url.host ∧ ('@' ∈ url.shownDatabase →
        NamesHost url.host (url.port.getD 5432) (lastAuthority url.shownDatabase)) := by
  rw [adminHostPort_of_shown url.second_text, lastAuthority_shown hinfo, Prod.mk.injEq,
    String.ofList_inj]
  by_cases hcolon : ':' ∈ url.host
  · -- What is read of the host ends before its colon.
    constructor
    · rintro ⟨hread, -⟩
      rw [← hread] at hcolon
      exact absurd hcolon (notMem_upTo _)
    · exact fun h => absurd hcolon h.1
  · rw [namesHost_iff hcolon]
    by_cases hat : '@' ∈ url.shownDatabase
    · simp [hat, hcolon]
    · simp [hat, hcolon, url.namesHost_hostPort]

/-! ## Both -/

theorem exists_info (h : url.password ≠ none) : ∃ info, url.userInfo = some info := by
  refine Option.ne_none_iff_exists'.mp fun hinfo => h ?_
  rw [password, hinfo]
  rfl

theorem password_of_none (hinfo : url.userInfo = none) : url.password = none := by
  rw [password, hinfo]
  rfl

theorem silent_iff (h : url.password = none) : registered url.text = [] ↔
    (url.userInfo = none →
      (':' ∉ url.host → url.port = none ∧ BareColon (upTo '@' url.shownDatabase)) ∧
        (':' ∈ url.host → BareColon url.host)) := by
  rw [registered_eq_nil_iff]
  cases hinfo : url.userInfo with
  | none =>
    rw [urlPassword_of_none_iff hinfo]
    exact ⟨fun hclear _ => hclear, fun hclear => hclear rfl⟩
  | some info => simp [urlPassword_of_user hinfo h]

/-- A URL is read as its parts if and only if none of them has a separator that is cut at too early
or too late. -/
theorem connection_secrets_iff : ∀ url : PostgresUrl, url.Recognised ↔ url.Clear := by
  intro url
  constructor
  · intro h
    have hsilent := fun hinfo : url.userInfo = none =>
      (silent_iff (password_of_none hinfo)).mp (h.silent (password_of_none hinfo)) hinfo
    refine ⟨?password, ?host, ?database, ?port, ?pathColon, ?hostColon⟩
    case password =>
      intro password hpassword
      exact (urlPassword_iff hpassword).mp (h.password password hpassword).1
    case host =>
      intro hpassword
      obtain ⟨info, hinfo⟩ := exists_info hpassword
      exact ((adminHostPort_iff hinfo).mp (h.hostPort hpassword)).1
    case database =>
      intro hpassword
      obtain ⟨info, hinfo⟩ := exists_info hpassword
      exact ((adminHostPort_iff hinfo).mp (h.hostPort hpassword)).2
    case port => exact fun hinfo hcolon => ((hsilent hinfo).1 hcolon).1
    case pathColon => exact fun hinfo hcolon => ((hsilent hinfo).1 hcolon).2
    case hostColon => exact fun hinfo => (hsilent hinfo).2
  · intro h
    refine ⟨?password, ?hostPort, ?silent⟩
    case password =>
      intro password hpassword
      have hread := (urlPassword_iff hpassword).mpr (h.password password hpassword)
      exact ⟨hread, hread⟩
    case hostPort =>
      intro hpassword
      obtain ⟨info, hinfo⟩ := exists_info hpassword
      exact (adminHostPort_iff hinfo).mpr ⟨h.host hpassword, h.database hpassword⟩
    case silent =>
      intro hpassword
      refine (silent_iff hpassword).mpr fun hinfo => ⟨?_, h.hostColon hinfo⟩
      exact fun hcolon => ⟨h.port hinfo hcolon, h.pathColon hinfo hcolon⟩

/-! ## Two URLs -/

/-- `postgres://admin:pa:ss@db-host:5432/app`. -/
def colonPassword : PostgresUrl where
  userInfo := some ⟨"admin".toList, some "pa:ss".toList, by decide, by decide, by decide,
    by decide, by decide⟩
  host := "db-host".toList
  port := some 5432
  database := "app".toList
  hostNoAt := by decide
  hostNoSlash := by decide
  bracketed := fun hcolon => absurd hcolon (by decide)

/-- `postgres://db-host:5432/app`. -/
def portOnly : PostgresUrl where
  userInfo := none
  host := "db-host".toList
  port := some 5432
  database := "app".toList
  hostNoAt := by decide
  hostNoSlash := by decide
  bracketed := fun hcolon => absurd hcolon (by decide)

/-- Of a password with a colon a part is redacted; without a password the port is taken for one. -/
theorem password_cut_at_colon :
    (colonPassword.text = "postgres://admin:pa:ss@db-host:5432/app" ∧
      urlPassword colonPassword.text = some "pa") ∧
    (portOnly.text = "postgres://db-host:5432/app" ∧
      registered portOnly.text = ["5432/app", "5432/app"]) ∧
    ¬ ∀ url : PostgresUrl, url.Recognised := by
  refine ⟨⟨by decide, by decide⟩, ⟨by decide, by decide⟩, ?_⟩
  intro hall
  have hpassword : "pa:ss".toList ∈ colonPassword.password := rfl
  have hcolon := (urlPassword_iff hpassword).mp ((hall colonPassword).password _ hpassword).1
  exact absurd (by decide) hcolon

end PostgresUrl

end Labrys.ControlPlane
