import Quarry.Settings.Address
import Quarry.Proofs.Outcome
import Quarry.Proofs.Text.Cut

/-!
# The parts of an address

What `Address.parse` makes of an address that starts with `user:password@`. The authority ends with
the first `/`, `?` or `#`, wherever that is. If neither user nor password has one of them, the
authority holds both, and what the address says besides the password depends on the user and the
rest alone (`parse_credentials`). If there is one in the front of an address, the authority is over
there, and of all that follows only the database can depend on it (`parse_append_of_ends`). Two
places have a host that is accepted behind any user and password.
-/

set_option autoImplicit false

namespace Quarry

/-! ## Decoding leaves something of every text -/

namespace Text

/-- Bytes that are under way come to something. -/
theorem Utf8.scan_pending_ne_nil (i : Nat) (p : Utf8.Pending) (data : List UInt8) :
    Utf8.scan i (some p) data ≠ [] := by
  induction data generalizing i p with
  | nil => simp [Utf8.scan]
  | cons b rest ih =>
    rw [Utf8.scan]
    split
    · split
      · simp
      · exact ih _ _
    · split
      · simp
      · split <;> simp

/-- Some bytes come to something. -/
theorem Utf8.scan_cons_ne_nil (i : Nat) (b : UInt8) (rest : List UInt8) :
    Utf8.scan i none (b :: rest) ≠ [] := by
  rw [Utf8.scan]
  split
  · simp
  · split
    · simp
    · exact Utf8.scan_pending_ne_nil _ _ _

/-- Some bytes are decoded to some. -/
theorem Percent.decodeBytes_cons_ne_nil (b : UInt8) (rest : List UInt8) :
    Percent.decodeBytes (b :: rest) ≠ [] := by
  rw [Percent.decodeBytes.eq_def]
  split
  · split <;> simp
  · simp
  · simp_all

/-- Some characters are decoded to some. -/
theorem Percent.decode_ne_nil {cs : List Char} (h : cs ≠ []) : Percent.decode cs ≠ [] := by
  obtain ⟨c, cs, rfl⟩ := List.exists_cons_of_ne_nil h
  have hbytes : (c :: cs).flatMap String.utf8EncodeChar ≠ [] := by
    simp [String.utf8EncodeChar_ne_nil]
  obtain ⟨b, bytes, hbytes⟩ := List.exists_cons_of_ne_nil hbytes
  obtain ⟨d, decoded, hdecoded⟩ := List.exists_cons_of_ne_nil (Percent.decodeBytes_cons_ne_nil b bytes)
  rw [Percent.decode, hbytes, hdecoded, Utf8.decodeTolerant]
  simpa using Utf8.scan_cons_ne_nil 0 d decoded

end Text

namespace Address

/-! ## The end of the authority -/

/-- Whether a character ends the authority of an address. -/
def endsAuthority (c : Char) : Bool := c == '/' || c == '?' || c == '#'

/-- What does not end the authority belongs to it. -/
theorem cutAuthority_append_of_none {front : List Char} (h : ∀ c ∈ front, endsAuthority c = false)
    (rest : List Char) :
    cutAuthority (front ++ rest) = (front ++ (cutAuthority rest).1, (cutAuthority rest).2) := by
  have hnone : ∀ c ∈ front, (!endsAuthority c) = true := fun c hc => by rw [h c hc]; rfl
  exact Prod.ext (List.takeWhile_append_of_pos hnone) (List.dropWhile_append_of_pos hnone)

/-- Behind the end of the authority the text goes on as it is. -/
theorem exists_cutAuthority_append {front : List Char} (h : ∃ c ∈ front, endsAuthority c = true) :
    ∃ authority, ∃ c ∈ front, endsAuthority c = true ∧ ∃ more, ∀ rest : List Char,
      cutAuthority (front ++ rest) = (authority, c :: (more ++ rest)) := by
  induction front with
  | nil => simp at h
  | cons c front ih =>
    cases hc : endsAuthority c with
    | true =>
      refine ⟨[], c, List.mem_cons_self, hc, front, fun rest => ?_⟩
      exact Prod.ext (List.takeWhile_cons_of_neg (p := fun c => !endsAuthority c) (by simp [hc]))
        (List.dropWhile_cons_of_neg (p := fun c => !endsAuthority c) (by simp [hc]))
    | false =>
      have hrest : ∃ d ∈ front, endsAuthority d = true := by simpa [hc] using h
      obtain ⟨authority, d, hd, hends, more, hcut⟩ := ih hrest
      refine ⟨c :: authority, d, List.mem_cons_of_mem _ hd, hends, more, fun rest => ?_⟩
      have hone : cutAuthority ([c] ++ (front ++ rest))
          = ([c] ++ (cutAuthority (front ++ rest)).1, (cutAuthority (front ++ rest)).2) :=
        cutAuthority_append_of_none (by simpa using hc) (front ++ rest)
      rw [hcut rest] at hone
      exact hone

/-! ## What is accepted, and what it says -/

/-- The characters of an address that are not passed over. -/
def kept (cs : List Char) : List Char := cs.filter fun c => !isIgnored c

/-- Kept are the characters that nobody ignores. -/
theorem mem_kept {c : Char} {cs : List Char} : c ∈ kept cs ↔ c ∈ cs ∧ isIgnored c = false := by
  simp [kept]

/-- What ends the authority is not ignored. -/
theorem isIgnored_of_endsAuthority {c : Char} (h : endsAuthority c = true) : isIgnored c = false := by
  simp only [endsAuthority, Bool.or_eq_true, beq_iff_eq] at h
  rcases h with (rfl | rfl) | rfl <;> rfl

/-- Two parts are kept one after the other. -/
theorem kept_append (front rest : List Char) : kept (front ++ rest) = kept front ++ kept rest :=
  List.filter_append _ _

/-- The signs around credentials are kept. -/
theorem kept_credentials (user password rest : List Char) :
    kept (user ++ ':' :: password ++ '@' :: rest)
      = kept user ++ ':' :: kept password ++ '@' :: kept rest := by
  rw [kept_append, kept_append]
  rfl

/-- An authority is accepted, with a port. -/
structure Accepted (authority : List Char) (port : Option Nat) : Prop where
  brackets : checkBrackets authority = .ok ()
  separators : checkSeparators authority = .ok ()
  readPort : readPort (hostAndPort (cutHost authority).2).2 = .ok port

/-- The database that a path names. -/
def namedDatabase (path : List Char) : Option String :=
  (nonempty ((Text.beforeFirst '?' (Text.beforeFirst '#' path)).dropWhile (· == '/'))).map fun t =>
    String.ofList (Text.Percent.decode t.toList)

/-- What an authority and the path behind it say, with the authority's port. -/
def spelled (authority path : List Char) (port : Option Nat) : Address :=
  let (credentials, location) := cutHost authority
  let user := (credentials.map (Text.beforeFirst ':')).getD []
  let password := credentials.bind fun c => (Text.cutFirst ':' c).map (·.2)
  { host := nonempty (hostName (hostAndPort location).1)
    port := port
    user := (nonempty user).map fun _ => String.ofList (Text.Percent.decode user)
    password := password.map fun p => String.ofList (Text.Percent.decode p)
    database := namedDatabase path }

/-- An address is parsed exactly if its authority is accepted. -/
theorem parse_eq_ok_iff {cs : List Char} {a : Address} :
    parse ('/' :: '/' :: cs) = .ok a ↔
      ∃ port, Accepted (cutAuthority (kept cs)).1 port ∧
        a = spelled (cutAuthority (kept cs)).1 (cutAuthority (kept cs)).2 port := by
  have hkept : (('/' :: '/' :: cs).filter fun c => !isIgnored c) = '/' :: '/' :: kept cs := rfl
  rw [parse, hkept, split]
  simp only [bind_eq_ok, map_eq_ok, pure_eq_ok]
  constructor
  · rintro ⟨-, ⟨⟨⟩, hbrackets, rfl⟩, ⟨⟩, hseparators, port, hport, rfl⟩
    exact ⟨port, ⟨hbrackets, hseparators, hport⟩, rfl⟩
  · rintro ⟨port, ⟨hbrackets, hseparators, hport⟩, rfl⟩
    exact ⟨_, ⟨(), hbrackets, rfl⟩, (), hseparators, port, hport, rfl⟩

/-! ## Addresses whose front ends the authority -/

/-- Where the front of an address ends the authority, what follows decides on the database alone. -/
theorem parse_append_of_ends {front rest : List Char} {a : Address}
    (hends : ∃ c ∈ kept front, endsAuthority c = true)
    (ha : parse ('/' :: '/' :: (front ++ rest)) = .ok a) (other : List Char) :
    ∃ b, parse ('/' :: '/' :: (front ++ other)) = .ok b ∧ a = { b with database := a.database } := by
  obtain ⟨authority, c, -, -, more, hcut⟩ := exists_cutAuthority_append hends
  rw [parse_eq_ok_iff, kept_append, hcut] at ha
  obtain ⟨port, haccepted, rfl⟩ := ha
  refine ⟨spelled authority (c :: (more ++ kept other)) port, ?_, rfl⟩
  rw [parse_eq_ok_iff, kept_append, hcut]
  exact ⟨port, haccepted, rfl⟩

/-- Without a slash there is no database. -/
theorem namedDatabase_of_ends {c : Char} (hends : endsAuthority c = true) (hslash : c ≠ '/')
    (rest : List Char) : namedDatabase (c :: rest) = none := by
  have hpath : Text.beforeFirst '?' (Text.beforeFirst '#' (c :: rest)) = [] := by
    obtain rfl | rfl : c = '?' ∨ c = '#' := by simpa [endsAuthority, hslash] using hends
    · cases h : Text.cutFirst '#' rest <;> simp [Text.beforeFirst, Text.cutFirst, h]
    · rfl
  rw [namedDatabase, hpath]
  rfl

/-- Where a front without `/` ends the authority, what follows is not used. -/
theorem parse_append_of_ends_of_no_path {front rest other : List Char} {a b : Address}
    (hends : ∃ c ∈ kept front, endsAuthority c = true) (hslash : '/' ∉ front)
    (ha : parse ('/' :: '/' :: (front ++ rest)) = .ok a)
    (hb : parse ('/' :: '/' :: (front ++ other)) = .ok b) : a = b := by
  obtain ⟨authority, c, hmem, hc, more, hcut⟩ := exists_cutAuthority_append hends
  have hne : c ≠ '/' := fun h => hslash (h ▸ (mem_kept.mp hmem).1)
  rw [parse_eq_ok_iff, kept_append, hcut] at ha hb
  obtain ⟨port, haccepted, rfl⟩ := ha
  obtain ⟨port', haccepted', rfl⟩ := hb
  have hport : port = port' := Except.ok.inj (haccepted.readPort.symm.trans haccepted'.readPort)
  simp only [hport, spelled, namedDatabase_of_ends hc hne]

/-! ## Addresses whose authority holds user and password -/

/-- What an authority leaves of its location to the password: all up to its last `@`. -/
def credentialEnd (rest : List Char) : List Char :=
  (Text.lastParts '@' (cutAuthority (kept rest)).1).1

/-- Credentials that do not end the authority belong to it. -/
theorem cutAuthority_credentials {user password : List Char}
    (huser : ∀ c ∈ user, endsAuthority c = false) (hpassword : ∀ c ∈ password, endsAuthority c = false)
    (rest : List Char) :
    cutAuthority (kept (user ++ ':' :: password ++ '@' :: rest))
      = (kept user ++ ':' :: kept password ++ '@' :: (cutAuthority (kept rest)).1,
          (cutAuthority (kept rest)).2) := by
  have hfront : ∀ c ∈ kept user ++ ':' :: kept password ++ ['@'], endsAuthority c = false := by
    simp only [List.mem_append, List.mem_cons, List.not_mem_nil, or_false]
    rintro c ((hc | rfl | hc) | rfl)
    · exact huser c (mem_kept.mp hc).1
    · rfl
    · exact hpassword c (mem_kept.mp hc).1
    · rfl
  rw [kept_credentials, ← List.singleton_append (l := kept rest), ← List.append_assoc,
    cutAuthority_append_of_none hfront, List.append_assoc]
  rfl

/-- The last sign before the host cuts the credentials off. -/
theorem cutHost_append (front location : List Char) :
    cutHost (front ++ '@' :: location)
      = (some (front ++ (Text.lastParts '@' location).1), (Text.lastParts '@' location).2) := by
  rw [cutHost, Text.cutLast_append]

/-- The password of an authority stands in one part of what it says, and there alone. -/
theorem spelled_credentials {user : List Char} (huser : ':' ∉ user)
    (password other location path : List Char) (port : Option Nat) :
    spelled (user ++ ':' :: password ++ '@' :: location) path port
      = { spelled (user ++ ':' :: other ++ '@' :: location) path port with
          password := some (String.ofList (Text.Percent.decode
            (password ++ (Text.lastParts '@' location).1))) } := by
  simp only [spelled, cutHost_append]
  simp only [List.append_assoc, List.cons_append, Option.map_some, Option.bind_some, Option.getD_some,
    Text.beforeFirst_append huser, Text.cutFirst_append huser]

/-- Where user and password are within the authority, an address says the same for all passwords
except for the password. -/
theorem parse_credentials {user password other rest : List Char} {a b : Address}
    (hcolon : ':' ∉ user) (huser : ∀ c ∈ user, endsAuthority c = false)
    (hpassword : ∀ c ∈ password, endsAuthority c = false)
    (hother : ∀ c ∈ other, endsAuthority c = false)
    (ha : parse ('/' :: '/' :: (user ++ ':' :: password ++ '@' :: rest)) = .ok a)
    (hb : parse ('/' :: '/' :: (user ++ ':' :: other ++ '@' :: rest)) = .ok b) :
    a = { b with
      password := some (String.ofList (Text.Percent.decode (kept password ++ credentialEnd rest))) } := by
  have hcolon' : ':' ∉ kept user := fun h => hcolon (mem_kept.mp h).1
  rw [parse_eq_ok_iff, cutAuthority_credentials huser hpassword] at ha
  rw [parse_eq_ok_iff, cutAuthority_credentials huser hother] at hb
  obtain ⟨port, haccepted, rfl⟩ := ha
  obtain ⟨port', haccepted', rfl⟩ := hb
  have hport : port = port' := by
    have hread := haccepted.readPort
    have hread' := haccepted'.readPort
    rw [cutHost_append] at hread hread'
    exact Except.ok.inj (hread.symm.trans hread')
  rw [hport]
  exact spelled_credentials hcolon' _ _ _ _ _

/-! ## Hosts that are accepted behind all credentials -/

/-- A host in brackets; its form is that of addresses of versions to come, which hold any letter.
Two of them are enough to tell a host that depends on its place from one that does not. -/
def place (k : Char) : List Char := ['[', 'v', '1', '.', k, ']']

/-- Whether a character could be taken for a separator. -/
def folds (c : Char) : Bool := foldingSeparators.contains c.toNat

/-- The separators are fine exactly if no character folds to one. -/
theorem checkSeparators_eq_ok_iff {authority : List Char} :
    checkSeparators authority = .ok () ↔ ∀ c ∈ authority, folds c = false := by
  rw [checkSeparators]
  split
  next h =>
    obtain ⟨c, hc, hfolds⟩ := List.any_eq_true.mp h
    refine ⟨nofun, fun hall => ?_⟩
    exact absurd (hall c hc) (by simpa [folds] using hfolds)
  next h =>
    refine ⟨fun _ c hc => ?_, fun _ => rfl⟩
    exact Bool.eq_false_iff.mpr fun hfolds => h (List.any_eq_true.mpr ⟨c, hc, hfolds⟩)

/-- An address is refused if a character of its front could be taken for a separator. -/
theorem folds_of_parse {front rest : List Char} {a : Address}
    (hfront : ∀ c ∈ kept front, endsAuthority c = false)
    (ha : parse ('/' :: '/' :: (front ++ rest)) = .ok a) : ∀ c ∈ kept front, folds c = false := by
  rw [parse_eq_ok_iff, kept_append, cutAuthority_append_of_none hfront] at ha
  obtain ⟨_, haccepted, _⟩ := ha
  exact fun c hc => checkSeparators_eq_ok_iff.mp haccepted.separators c (List.mem_append_left _ hc)

/-- Brackets in the credentials are balanced by those of the place. -/
theorem accepted_place {front : List Char} (hfront : ∀ c ∈ front, folds c = false) {k : Char}
    (hk : k = 'k' ∨ k = 'l') : Accepted (front ++ '@' :: place k) none := by
  have hlast : (Text.lastParts '@' (place k)).2 = place k := by rcases hk with rfl | rfl <;> rfl
  constructor
  · have hopen : (front ++ '@' :: place k).contains '[' = true := by simp [place]
    have hclose : (front ++ '@' :: place k).contains ']' = true := by simp [place]
    rw [checkBrackets, hopen, hclose, cutHost_append, hlast]
    rcases hk with rfl | rfl <;> rfl
  · rw [checkSeparators_eq_ok_iff]
    have hplace : ∀ c ∈ '@' :: place k, folds c = false := by
      rcases hk with rfl | rfl <;> simp [place, folds, foldingSeparators]
    intro c hc
    exact (List.mem_append.mp hc).elim (hfront c) (hplace c)
  · rw [cutHost_append, hlast]
    rcases hk with rfl | rfl <;> rfl

/-- What an address with a place says, for a user and a password in which nothing could be taken for
a separator. -/
theorem exists_parse_place {user password : List Char}
    (huser : ∀ c ∈ user, endsAuthority c = false) (hpassword : ∀ c ∈ password, endsAuthority c = false)
    (hfolds : ∀ c ∈ kept user, folds c = false) (hfolds' : ∀ c ∈ kept password, folds c = false)
    {k : Char} (hk : k = 'k' ∨ k = 'l') :
    ∃ a, parse ('/' :: '/' :: (user ++ ':' :: password ++ '@' :: place k)) = .ok a ∧
      a.host = some (String.ofList ['v', '1', '.', k]) := by
  have hplace : cutAuthority (kept (place k)) = (place k, []) := by rcases hk with rfl | rfl <;> rfl
  have hfront : ∀ c ∈ kept user ++ ':' :: kept password, folds c = false := by
    simp only [List.mem_append, List.mem_cons]
    rintro c (hc | rfl | hc)
    · exact hfolds c hc
    · rfl
    · exact hfolds' c hc
  refine ⟨spelled (kept user ++ ':' :: kept password ++ '@' :: place k) [] none, ?_, ?_⟩
  · rw [parse_eq_ok_iff, cutAuthority_credentials huser hpassword, hplace]
    exact ⟨none, accepted_place hfront hk, rfl⟩
  · simp only [spelled, cutHost_append]
    rcases hk with rfl | rfl <;> rfl

end Address

end Quarry
