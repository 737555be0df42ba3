import Quarry.Settings.Target
import Quarry.Proofs.Settings.Masked
import Quarry.Proofs.Settings.Parts

/-!
# Passwords in addresses of servers

A server can be given by an address with a user and a password, and its description goes to the log
when no connection is to be had. The address is read by one way of taking it apart and masked by
another. The mask reaches to the last `@` of the address, while the reader takes the authority to
end with the first `/`, `?` or `#`, and passes over line breaks and tabulators. The two agree on
passwords that are whole: nothing in them ends the authority, and something is left of them. For
these the description tells nothing (`Address.parse_credentials`). A password that ends the
authority spills into host, port and database, and one that vanishes is shown to be empty.
`concealed_iff` says that there is nothing between: other passwords are told apart from whole ones
unless the user's name ends the authority already, or the address is refused.
-/

set_option autoImplicit false

namespace Quarry.Target

open Settings (credentialAddress maskedAddress mask maskPassword)

variable {s : Settings} {user password other rest : String}

/-- The address of a server with user and password, and what follows them. -/
def serverAddress (user password rest : String) : String :=
  credentialAddress "mysql" user password rest

/-- The characters of such an address behind the slashes. -/
def credentials (user password rest : String) : List Char :=
  user.toList ++ ':' :: password.toList ++ '@' :: rest.toList

/-- An address of a server is parsed behind its kind. -/
theorem resolve_serverAddress (s : Settings) (user password rest : String) :
    resolve (.text (serverAddress user password rest)) s
      = (Address.parse ('/' :: '/' :: credentials user password rest)).map fun a =>
          ⟨.mysql, a.overlay (serverAddress user password rest) s⟩ := by
  have hlist : (serverAddress user password rest).toList
      = "mysql".toList ++ ':' :: '/' :: '/' :: credentials user password rest :=
    Settings.toList_credentialAddress _ _ _ _
  have hpath : isPath (serverAddress user password rest) = false := by
    have hmemory : serverAddress user password rest ≠ ":memory:" := fun h => by
      have := hlist.symm.trans (congrArg String.toList h)
      simp at this
    rw [isPath, hlist]
    simpa using hmemory
  have hcut : Text.cutFirst ':' (serverAddress user password rest).toList
      = some ("mysql".toList, '/' :: '/' :: credentials user password rest) := by
    rw [hlist, Text.cutFirst_append (by decide)]
  have hkind : String.ofList (Text.lower "mysql".toList) = "mysql" := by decide
  simp only [resolve, serverAddress, Settings.isTrue_credentialAddress, if_true]
  rw [← serverAddress, ofAddress, hpath, hcut]
  simp only [hkind]
  rfl

/-- The description of a server. -/
def shown (user rest : String) (s : Settings) : Record :=
  ("dialect", .text "mysql") :: Settings.fields { s with
    url := .text (maskedAddress "mysql" user rest), password := maskPassword s.password }

/-- The address under which a server was found is masked in its description. -/
theorem describe_overlay (huser : ':' ∉ user.toList) (a : Address) (s : Settings)
    (password rest : String) :
    describe ⟨.mysql, a.overlay (serverAddress user password rest) s⟩
      = .ok (shown user rest (a.overlay (serverAddress user password rest) s)) := by
  rw [describe, Settings.describe_of_credentialAddress (by decide) huser rfl]
  rfl

/-- No part of a description depends on the password but what stands for it. -/
theorem shown_overlay_congr {a : Address} {secret secret' : String} (h : secret ≠ "")
    (h' : secret' ≠ "") (user rest url url' : String) (s : Settings) :
    shown user rest ({ a with password := some secret }.overlay url s)
      = shown user rest ({ a with password := some secret' }.overlay url' s) := by
  simp only [shown, Address.overlay, Option.map_some, Option.getD_some, Settings.maskPassword_text h,
    Settings.maskPassword_text h']

/-! ## Which passwords are concealed -/

/-- A password is whole: nothing in it ends the authority, and not all of it is passed over. -/
def IsWhole (password : String) : Prop :=
  (∀ c ∈ password.toList, Address.endsAuthority c = false) ∧
    ∃ c ∈ password.toList, Address.isIgnored c = false

/-- Whether a password is whole can be computed. -/
instance (password : String) : Decidable (IsWhole password) :=
  decidable_of_iff
    ((password.toList.all fun c => !Address.endsAuthority c) = true ∧
      (password.toList.any fun c => !Address.isIgnored c) = true)
    (by simp [IsWhole])

/-- A user's name ends the authority, so that no password is read. -/
def IsCutShort (user : String) : Prop := ∃ c ∈ user.toList, Address.endsAuthority c = true

/-- Servers that are found with either of two passwords, and alike in all else, have the same
description. -/
def DescribedAlike (user password other : String) : Prop :=
  ∀ (s : Settings) (rest : String) (t t' : Target),
    resolve (.text (serverAddress user password rest)) s = .ok t →
    resolve (.text (serverAddress user other rest)) s = .ok t' →
    ∃ description, t.describe = .ok description ∧ t'.describe = .ok description

/-- No server is found with a password, whatever else is given. -/
def IsRefused (user password : String) : Prop :=
  ∀ (s : Settings) (rest : String) (t : Target),
    resolve (.text (serverAddress user password rest)) s ≠ .ok t

/-- Two descriptions are the same if the addresses say the same besides a password. -/
theorem describedAlike_of_parse (huser : ':' ∉ user.toList)
    (h : ∀ (s : Settings) (rest url url' : String) (a b : Address),
      Address.parse ('/' :: '/' :: credentials user password rest) = .ok a →
      Address.parse ('/' :: '/' :: credentials user other rest) = .ok b →
      shown user rest (a.overlay url s) = shown user rest (b.overlay url' s)) :
    DescribedAlike user password other := by
  intro s rest t t' ht ht'
  rw [resolve_serverAddress, map_eq_ok] at ht ht'
  obtain ⟨a, ha, rfl⟩ := ht
  obtain ⟨b, hb, rfl⟩ := ht'
  refine ⟨_, describe_overlay huser a s password rest, ?_⟩
  rw [describe_overlay huser b s other rest, h s rest _ _ a b ha hb]

/-- A user whose name is not cut short does not end the authority. -/
theorem endsAuthority_of_not_isCutShort (h : ¬ IsCutShort user) :
    ∀ c ∈ user.toList, Address.endsAuthority c = false :=
  fun c hc => Bool.eq_false_iff.mpr fun hends => h ⟨c, hc, hends⟩

/-- A whole password leaves a secret that is not empty. -/
theorem secret_ne_empty (hwhole : IsWhole password) (more : List Char) :
    String.ofList (Text.Percent.decode (Address.kept password.toList ++ more)) ≠ "" := by
  obtain ⟨-, c, hc, hkept⟩ := hwhole
  have hne : Address.kept password.toList ++ more ≠ [] :=
    List.append_ne_nil_of_left_ne_nil
      (List.ne_nil_of_mem (Address.mem_kept.mpr ⟨hc, hkept⟩)) _
  simpa using Text.Percent.decode_ne_nil hne

/-- Whole passwords are described alike. -/
theorem describedAlike_of_isWhole (hcolon : ':' ∉ user.toList) (hcut : ¬ IsCutShort user)
    (h : IsWhole password) (h' : IsWhole other) : DescribedAlike user password other := by
  refine describedAlike_of_parse hcolon fun s rest url url' a b ha hb => ?_
  have huser := endsAuthority_of_not_isCutShort hcut
  have hab := Address.parse_credentials hcolon huser h.1 h'.1 ha hb
  have hbb := Address.parse_credentials hcolon huser h'.1 h'.1 hb hb
  calc shown user rest (a.overlay url s)
      = shown user rest (Address.overlay url { b with password := _ } s) := by rw [← hab]
    _ = shown user rest (Address.overlay url' { b with password := _ } s) :=
        shown_overlay_congr (secret_ne_empty h _) (secret_ne_empty h' _) _ _ _ _ _
    _ = shown user rest (b.overlay url' s) := by rw [← hbb]

/-- Behind a user whose name is cut short, passwords are described alike. -/
theorem describedAlike_of_isCutShort (hcolon : ':' ∉ user.toList) (hslash : '/' ∉ user.toList)
    (hcut : IsCutShort user) (password other : String) : DescribedAlike user password other := by
  obtain ⟨c, hc, hends⟩ := hcut
  have hkept : ∃ c ∈ Address.kept user.toList, Address.endsAuthority c = true :=
    ⟨c, Address.mem_kept.mpr ⟨hc, Address.isIgnored_of_endsAuthority hends⟩, hends⟩
  refine describedAlike_of_parse hcolon fun s rest url url' a b ha hb => ?_
  rw [credentials, List.append_assoc] at ha hb
  rw [Address.parse_append_of_ends_of_no_path hkept hslash ha hb]
  rfl

/-! ## Which passwords are told apart -/

/-- What is shown tells the host. -/
theorem host_eq_of_shown_eq {s' : Settings} (h : shown user rest s = shown user rest s') :
    s.host = s'.host := by
  simp only [shown, Settings.fields, List.cons.injEq, Prod.mk.injEq] at h
  exact h.2.2.1.2

/-- What is shown tells the masked password. -/
theorem maskPassword_eq_of_shown_eq {s' : Settings} (h : shown user rest s = shown user rest s') :
    maskPassword s.password = maskPassword s'.password := by
  simp only [shown, Settings.fields, List.cons.injEq, Prod.mk.injEq] at h
  exact h.2.2.2.2.2.1.2

/-- What is shown is the same for credentials that are described alike. -/
theorem shown_eq_of_describedAlike (hcolon : ':' ∉ user.toList)
    (h : DescribedAlike user password other) {a b : Address}
    (ha : Address.parse ('/' :: '/' :: credentials user password rest) = .ok a)
    (hb : Address.parse ('/' :: '/' :: credentials user other rest) = .ok b) :
    shown user rest (a.overlay (serverAddress user password rest) {})
      = shown user rest (b.overlay (serverAddress user other rest) {}) := by
  obtain ⟨description, ht, ht'⟩ := h {} rest _ _
    (by rw [resolve_serverAddress, ha]; rfl) (by rw [resolve_serverAddress, hb]; rfl)
  rw [describe_overlay hcolon] at ht ht'
  exact Except.ok.inj (ht.trans ht'.symm)

/-- A password of one letter is whole. -/
theorem isWhole_x : IsWhole "x" := by decide

/-- A letter folds to no separator. -/
theorem folds_x : ∀ c ∈ Address.kept "x".toList, Address.folds c = false := by
  intro c hc
  obtain rfl : c = 'x' := List.mem_singleton.mp hc
  rfl

/-- A place behind the credentials, as a text. -/
def placeText (k : Char) : String := String.ofList (Address.place k)

/-- A user whose address is accepted with some password has a server at every place. -/
theorem exists_server_at_place (other : String)
    (huser : ∀ c ∈ user.toList, Address.endsAuthority c = false) {a : Address}
    (ha : Address.parse ('/' :: '/' :: credentials user password rest) = .ok a)
    (hother : ∀ c ∈ other.toList, Address.endsAuthority c = false)
    (hfolds : ∀ c ∈ Address.kept other.toList, Address.folds c = false) {k : Char}
    (hk : k = 'k' ∨ k = 'l') :
    ∃ b, Address.parse ('/' :: '/' :: credentials user other (placeText k)) = .ok b ∧
      b.host = some (String.ofList ['v', '1', '.', k]) := by
  rw [credentials, List.append_assoc] at ha
  have huser' : ∀ c ∈ Address.kept user.toList, Address.folds c = false :=
    Address.folds_of_parse (fun c hc => huser c (Address.mem_kept.mp hc).1) ha
  rw [credentials, placeText, String.toList_ofList]
  exact Address.exists_parse_place huser hother huser' hfolds hk

/-- A password that ends the authority leaves no room for the place behind it. -/
theorem not_describedAlike_of_ends (hcolon : ':' ∉ user.toList) (hcut : ¬ IsCutShort user)
    (hends : ∃ c ∈ password.toList, Address.endsAuthority c = true) {a : Address}
    (ha : Address.parse ('/' :: '/' :: credentials user password rest) = .ok a) :
    ¬ DescribedAlike user password "x" := by
  intro h
  have huser := endsAuthority_of_not_isCutShort hcut
  obtain ⟨c, hc, hends⟩ := hends
  have hfront : ∃ c ∈ Address.kept (user.toList ++ ':' :: password.toList),
      Address.endsAuthority c = true :=
    ⟨c, Address.mem_kept.mpr ⟨by simp [hc], Address.isIgnored_of_endsAuthority hends⟩, hends⟩
  have hhost : ∀ k, k = 'k' ∨ k = 'l' →
      (a.host.map Value.text).getD (.text "localhost") = .text (String.ofList ['v', '1', '.', k]) := by
    intro k hk
    obtain ⟨a', ha', haa'⟩ := Address.parse_append_of_ends hfront ha ('@' :: (placeText k).toList)
    obtain ⟨b, hb, hbhost⟩ := exists_server_at_place "x" huser ha isWhole_x.1 folds_x hk
    have hsame := host_eq_of_shown_eq (shown_eq_of_describedAlike hcolon h ha' hb)
    simp only [Address.overlay, hbhost] at hsame
    rw [haa']
    exact hsame
  have hkl := (hhost 'k' (.inl rfl)).symm.trans (hhost 'l' (.inr rfl))
  exact absurd (Value.text.inj hkl) (by decide)

/-- A password of which nothing is left is shown to be empty. -/
theorem not_describedAlike_of_vanishing (hcolon : ':' ∉ user.toList) (hcut : ¬ IsCutShort user)
    (hnone : ∀ c ∈ password.toList, Address.endsAuthority c = false)
    (hkept : Address.kept password.toList = []) {a : Address}
    (ha : Address.parse ('/' :: '/' :: credentials user password rest) = .ok a) :
    ¬ DescribedAlike user password "x" := by
  intro h
  have huser := endsAuthority_of_not_isCutShort hcut
  obtain ⟨a', ha', -⟩ := exists_server_at_place password huser ha hnone (by simp [hkept])
    (k := 'k') (.inl rfl)
  obtain ⟨b, hb, -⟩ := exists_server_at_place "x" huser ha isWhole_x.1 folds_x
    (k := 'k') (.inl rfl)
  have hempty := congrArg Address.password (Address.parse_credentials hcolon huser hnone hnone ha' ha')
  have hx := congrArg Address.password
    (Address.parse_credentials hcolon huser isWhole_x.1 isWhole_x.1 hb hb)
  have hsame := maskPassword_eq_of_shown_eq (shown_eq_of_describedAlike hcolon h ha' hb)
  simp only [Address.overlay, hempty, hx, hkept, Option.map_some, Option.getD_some] at hsame
  have hshown : Value.text "" = Value.text mask := hsame
  exact absurd (Value.text.inj hshown) (by decide)

/-- A password is concealed among the whole ones if it is one of them, if no password is read, or if
its address is refused; any other is told apart from one of them. -/
theorem concealed_iff (hcolon : ':' ∉ user.toList) (hslash : '/' ∉ user.toList) :
    (∀ other, IsCutShort user ∨ IsWhole other → DescribedAlike user password other) ↔
      IsCutShort user ∨ IsWhole password ∨ IsRefused user password := by
  by_cases hcut : IsCutShort user
  · simp only [hcut, true_or, forall_const, iff_true]
    exact describedAlike_of_isCutShort hcolon hslash hcut password
  simp only [hcut, false_or]
  constructor
  · intro h
    by_contra hneither
    obtain ⟨hwhole, haccepted⟩ := not_or.mp hneither
    simp only [IsRefused, not_forall, not_not] at haccepted
    obtain ⟨s, rest, t, ht⟩ := haccepted
    rw [resolve_serverAddress, map_eq_ok] at ht
    obtain ⟨a, ha, -⟩ := ht
    have hx := h "x" isWhole_x
    by_cases hends : ∃ c ∈ password.toList, Address.endsAuthority c = true
    · exact not_describedAlike_of_ends hcolon hcut hends ha hx
    · have hnone : ∀ c ∈ password.toList, Address.endsAuthority c = false :=
        fun c hc => Bool.eq_false_iff.mpr fun hc' => hends ⟨c, hc, hc'⟩
      have hkept : Address.kept password.toList = [] := by
        refine List.eq_nil_iff_forall_not_mem.mpr fun c hc => ?_
        exact hwhole ⟨hnone, c, Address.mem_kept.mp hc⟩
      exact not_describedAlike_of_vanishing hcolon hcut hnone hkept ha hx
  · rintro (hwhole | hrefused) other hother
    · exact describedAlike_of_isWhole hcolon hcut hwhole hother
    · intro s rest t t' ht
      exact absurd ht (hrefused s rest t)

/-- Separators that only the mask looks for do no harm in a password. -/
theorem concealed_signs : DescribedAlike "app" "p@s:s" "1%2F2" :=
  (concealed_iff (by decide) (by decide)).mpr (.inr (.inl (by decide))) "1%2F2" (.inr (by decide))

/-- In front of its slash a password is read as a port, and behind it as the database. -/
theorem slash_spills_password :
    ¬ ∀ user password other : String, ':' ∉ user.toList → '@' ∉ user.toList → '/' ∉ user.toList →
      password ≠ "" → other ≠ "" → DescribedAlike user password other := by
  intro h
  have hspilled : Address.parse ('/' :: '/' :: credentials "app" "1/secret" "db.local/shop")
      = .ok ⟨some "app", some 1, none, none, some "secret@db.local/shop"⟩ := rfl
  have hwhole : Address.parse ('/' :: '/' :: credentials "app" "x" "db.local/shop")
      = .ok ⟨some "db.local", none, some "app", some "x", some "shop"⟩ := rfl
  have hsame := host_eq_of_shown_eq (shown_eq_of_describedAlike (by decide)
    (h "app" "1/secret" "x" (by decide) (by decide) (by decide) (by decide) (by decide))
    hspilled hwhole)
  have hshown : Value.text "app" = Value.text "db.local" := hsame
  exact absurd (Value.text.inj hshown) (by decide)

end Quarry.Target
