import SimpleSftpd.VirtualHost.HostFile

/-! Saving the virtual hosts and loading them again, and what the `virtual` command leaves of the
hosts it is not about. -/

namespace SimpleSftpd

open Cxx Interaction Password Prog

variable (pbkdf2 : Pbkdf2)

def StoreCall.after (g : Str → StoredFile) {β : Type} (o : StoreCall β) : β → Str → StoredFile := match o with
  | .truncate file => fun opened => if opened then Function.update g file .unparsable else g
  | .write file root => fun _ => Function.update g file (.json root)
  | _ => fun _ => g

def StoreCall.tells (total : Prop) (g : Str → StoredFile) {β : Type} (o : StoreCall β) : β → Prop := match o with
  | .read file => fun found => found = g file
  | .createDirectories _ => fun failure => total → failure = none
  | _ => fun _ => True

def hostFiling (total : Prop) : Contract StoreCall (Str → StoredFile) where
  pre _ _ := True
  post g o r := o.tells total g r
  next g o r := o.after g r

def Readable : StoredFile → Prop
  | .json root => ∃ users, FTPUserManager.usersArray root = .ok users ∧
      ∀ entries, users = some entries → ∀ j ∈ entries, ∃ entry, FTPUser.ofJson j = .ok entry
  | _ => True

variable {pbkdf2} {total : Prop} {g : Str → StoredFile} {F : Set Str}

lemma generating_hostFiling {α : Type} {p : Storing α} {P : α → Prop} (h : p.Within Generating P) :
    Ends (hostFiling total) p (fun a g' => P a ∧ g' = g) (· = g) g := by
  refine h.ends (J := (· = g)) (fun o g' ho hg => ⟨trivial, fun r _ => ?_⟩) rfl
  cases o with
  | randBytes n => exact hg
  | _ => exact absurd ho id

def Ready (F : Set Str) (g : Str → StoredFile) : Prop := ∀ f ∈ F, Readable (g f)

lemma Ready.update (h : Ready F g) {f : Str} {c : StoredFile} (hc : Readable c) :
    Ready F (Function.update g f c) := by
  intro f' hf'
  by_cases hff : f' = f
  · subst hff
    rwa [Function.update_self]
  · rw [Function.update_of_ne hff]
    exact h f' hf'

namespace FTPUserManager

lemma readable_toJson {m : FTPUserManager} (hm : m.Sound) (updated : Int) :
    Readable (.json (m.toJson updated)) := by
  refine ⟨_, usersArray_toJson, fun entries he j hj => ?_⟩
  cases he
  obtain ⟨e, hmem, rfl⟩ := List.mem_map.1 hj
  exact ⟨_, FTPUser.ofJson_toJson (hm e.1 e.2 (AList.mem_lookup_iff.2 hmem)).2⟩

lemma readUsers_ok {entries : List Json} : ∀ {users : UserMap} {migrated : Bool},
    (∀ j ∈ entries, ∃ entry, FTPUser.ofJson j = .ok entry) →
      (readUsers pbkdf2 users migrated entries).Within Generating fun r => ∃ b, r.1 = .ok b := by
  induction entries with
  | nil => exact fun _ => (within_pure _).2 ⟨_, rfl⟩
  | cons j js ih =>
    intro users migrated h
    obtain ⟨entry, hentry⟩ := h j List.mem_cons_self
    have hrest : ∀ j ∈ js, ∃ entry, FTPUser.ofJson j = .ok entry := fun j' hj' => h j' (List.mem_cons_of_mem _ hj')
    unfold readUsers
    rw [hentry]
    cases entry with
    | none => exact ih hrest
    | some entry =>
      apply within_bind.2
      exact (FTPUser.construct_within _ _ _).mono (fun _ h => h) fun _ _ => ih hrest

lemma saveUsers_hostFiling {m : FTPUserManager} (hm : m.Sound) (hready : total → Ready F g) (filename : Str) :
    Ends (hostFiling total) (m.saveUsers filename) (fun _ g' => total → Ready F g') (fun _ => ¬total) g := by
  refine ends_ite (fun _ => ends_pure hready) fun _ => ends_bind ?_
  have hdirectories :
    Ends (hostFiling total) (if Path.hasParentPath (if filename = [] then m.user_file_ else filename)
      then request (.createDirectories (Path.parentPath (if filename = [] then m.user_file_ else filename)))
      else pure none : Storing (Option Errc)) (fun r g' => (total → r = none) ∧ g' = g) (fun _ => ¬total) g :=
    ends_ite (fun _ => ends_perform trivial fun r hr => ⟨hr, rfl⟩) fun _ => ends_pure ⟨fun _ => rfl, rfl⟩
  refine hdirectories.mono ?_ fun _ h => h
  rintro failure _ ⟨hfailure, rfl⟩
  cases failure with
  | some e => exact ends_throw fun ht => Option.some_ne_none e (hfailure ht)
  | none =>
    refine ends_bind (ends_perform trivial fun updated _ => ?_)
    refine ends_bind (ends_perform trivial fun opened _ => ?_)
    cases opened with
    | false => exact ends_pure hready
    | true =>
      refine ends_bind (ends_perform trivial fun _ _ => ends_pure fun ht => ?_)
      exact ((hready ht).update (c := .unparsable) trivial).update (readable_toJson hm updated)

lemma loadUsers_hostFiling {user_file : Str} (hready : total → Ready F g ∧ user_file ∈ F)
    (hfile : user_file ≠ []) :
    Ends (hostFiling total) (loadUsers pbkdf2 ⟨∅, user_file⟩ []) (fun r g' => (total → Ready F g') ∧
      r.2.user_file_ = user_file ∧ (total → ∃ b, r.1 = .ok b)) (fun _ => ¬total) g := by
  have hkept : total → Ready F g := fun ht => (hready ht).1
  refine ends_ite (fun h => absurd h hfile) fun _ => ends_bind (ends_perform trivial ?_)
  intro found hfound
  have hreadable : total → Readable found :=
    fun ht => (show found = g user_file from hfound) ▸ (hready ht).1 _ (hready ht).2
  cases found with
  | missing | unparsable => exact ends_pure ⟨hkept, rfl, fun _ => ⟨_, rfl⟩⟩
  | json root =>
    cases hroot : usersArray root with
    | error e =>
      simp only [hroot]
      refine ends_pure ⟨hkept, rfl, fun ht => ?_⟩
      obtain ⟨users, hu, _⟩ := hreadable ht
      cases hroot.symm.trans hu
    | ok entries =>
      cases entries with
      | none =>
        simp only [hroot]
        exact ends_pure ⟨hkept, rfl, fun _ => ⟨_, rfl⟩⟩
      | some entries =>
        simp only [hroot]
        have hsound : (readUsers pbkdf2 ∅ false entries).Within Generating _ :=
          readUsers_of_file (P := fun k u => u.username_ = k ∧ u.InRange) hroot
            fun entry he u hu => ⟨rfl, hu.inRange (storedUsers_inRange he)⟩
        have hreturns : (readUsers pbkdf2 ∅ false entries).Within Generating fun r => total →
            ∃ b, r.1 = .ok b := by
          by_cases ht : total
          · obtain ⟨users, hu, hentries⟩ := hreadable ht
            cases hroot.symm.trans hu
            exact (readUsers_ok (hentries _ rfl)).mono (fun _ h => h) fun r hr _ => hr
          · exact hsound.mono (fun _ h => h) fun r _ h => absurd h ht
        refine ends_bind (((generating_hostFiling (hsound.and hreturns)).of_returns readUsers_returns).mono ?_
          fun _ h => h)
        rintro ⟨migrated, users⟩ _ ⟨⟨⟨haccounts, _⟩, hok⟩, rfl⟩
        cases migrated with
        | error e =>
          refine ends_pure ⟨hkept, rfl, fun ht => ?_⟩
          obtain ⟨b, hb⟩ := hok ht
          cases hb
        | ok migrated =>
          have hm : Sound ⟨users, user_file⟩ := haccounts
          refine ends_bind (ends_ite (fun _ => ?_) fun _ => ends_pure (ends_pure ⟨hkept, rfl, fun _ => ⟨_, rfl⟩⟩))
          exact (saveUsers_hostFiling hm hkept _).mono (fun _ g' h => ends_pure ⟨h, rfl, fun _ => ⟨_, rfl⟩⟩)
            fun _ h => h

lemma construct_hostFiling {user_file : Str} (hready : total → Ready F g ∧ user_file ∈ F) :
    Ends (hostFiling total) (construct pbkdf2 user_file) (fun m g' => (total → Ready F g') ∧
      m.user_file_ = user_file)
      (fun _ => ¬total) g := by
  refine ends_ite (fun h => ends_pure ⟨fun ht => (hready ht).1, rfl⟩) fun hfile => ends_bind ?_
  refine (loadUsers_hostFiling hready hfile).mono ?_ fun _ h => h
  rintro ⟨loaded, m⟩ g' ⟨hready', hname, hok⟩
  cases loaded with
  | error e =>
    refine ends_throw fun ht => ?_
    obtain ⟨b, hb⟩ := hok ht
    cases hb
  | ok b => exact ends_pure ⟨hready', hname⟩

end FTPUserManager

lemma checked_ends {α : Type} {x : Except JsonError α} {P : α → (Str → StoredFile) → Prop}
    {E : (Str → StoredFile) → Prop}
    (hok : ∀ a, x = .ok a → P a g) (herror : ∀ e, x = .error e → E g) :
    Ends (hostFiling total) (checked x) P E g := by
  cases x with
  | ok a => exact ends_pure (hok a rfl)
  | error e => exact ends_throw (herror e rfl)

namespace FTPVirtualHost

lemma readUsers_hostFiling {user_file : Str} (hready : total → Ready F g ∧ (user_file ∈ F ∨ user_file = [])) :
    Ends (hostFiling total) (if user_file ≠ [] then some <$> FTPUserManager.construct pbkdf2 user_file
      else pure none :
      Storing (Option FTPUserManager)) (fun users g' => (total → Ready F g') ∧
        ∀ h : FTPVirtualHost, { h with user_manager_ := users }.userFile = user_file) (fun _ => ¬total) g := by
  refine ends_ite (fun hf => ?_) fun hf => ends_pure ⟨fun ht => (hready ht).1, fun h => (not_not.1 hf).symm⟩
  have hthis : total → Ready F g ∧ user_file ∈ F := fun ht => ⟨(hready ht).1, (hready ht).2.resolve_right hf⟩
  rw [map_eq_pure_bind]
  exact ends_bind ((FTPUserManager.construct_hostFiling hthis).mono
    (fun m g' h => ends_pure ⟨h.1, fun _ => h.2⟩) fun _ h => h)

lemma read_hostFiling {j : Json} (hready : total → Ready F g)
    (hj : total → ∃ r, ofJson j = .ok r ∧ ∀ h, r = some h → h.userFile ∈ F ∨ h.userFile = []) :
    Ends (hostFiling total) (read pbkdf2 j) (fun r g' => (total → Ready F g') ∧
      ∃ r', ofJson j = .ok r' ∧ r.map (·.attributes) = r'.map (·.attributes)) (fun _ => ¬total) g := by
  have hnever {e : JsonError} (he : ofJson j = .error e) : ¬total := by
    intro ht
    obtain ⟨r, hr, _⟩ := hj ht
    cases he.symm.trans hr
  refine ends_bind (checked_ends (fun r hr => ?_) fun e he => hnever (by rw [ofJson, he]; rfl))
  cases r with
  | none => exact ends_pure ⟨hready, none, by rw [ofJson, hr]; rfl, rfl⟩
  | some host =>
    refine ends_bind (checked_ends (fun user_file hf => ?_)
      fun e he => hnever (by rw [ofJson, hr]; simp only [he]; rfl))
    obtain ⟨errors, hread⟩ := readCustomErrors_eq j
    have hjson := ofJson_eq hr hf
    rw [hread] at hjson
    cases hc : errors host.custom_errors_ with
    | error e =>
      rw [hc] at hjson
      have hthis : total → Ready F g ∧ (user_file ∈ F ∨ user_file = []) := fun ht => absurd ht (hnever hjson)
      refine ends_bind ((readUsers_hostFiling hthis).mono (fun users g' h => ends_bind (checked_ends ?_ ?_))
        fun _ h => h)
      · intro host' he
        rw [hread, hc] at he
        cases he
      · exact fun _ _ => hnever hjson
    | ok custom =>
      rw [hc] at hjson
      have hnamed : FTPVirtualHost.userFile { host with user_manager_ := named user_file, custom_errors_ :=
          custom } = user_file :=
        userFile_named rfl
      have hthis : total → Ready F g ∧ (user_file ∈ F ∨ user_file = []) := by
        intro ht
        obtain ⟨r, hr', hin⟩ := hj ht
        cases hjson.symm.trans hr'
        exact ⟨hready ht, hnamed ▸ hin _ rfl⟩
      refine ends_bind
        ((readUsers_hostFiling hthis).mono
        (fun users g' h => ends_bind (checked_ends (fun host' he => ?_) ?_)) fun _ h => h)
      · rw [hread, hc] at he
        cases he
        have huser : FTPVirtualHost.userFile { host with user_manager_ := users, custom_errors_ :=
            custom } = user_file :=
          h.2 { host with custom_errors_ := custom }
        refine ends_pure ⟨h.1, _, hjson, congrArg some ?_⟩
        simp only [attributes, huser, hnamed]
        rfl
      · intro e he
        rw [hread, hc] at he
        cases he

end FTPVirtualHost

namespace FTPVirtualHostManager

lemma readHosts_hostFiling {js : List Json} : ∀ {g : Str → StoredFile} {loaded decoded : VirtualHosts},
    (total → Ready F g) → (∀ name, loaded.attributesOf name = decoded.attributesOf name) →
    (total → (∃ hosts, decodeHosts decoded js = .ok hosts) ∧
      ∀ j ∈ js, ∀ h, FTPVirtualHost.ofJson j = .ok (some h) → h.userFile ∈ F ∨ h.userFile = []) →
    Ends (hostFiling total) (readHosts pbkdf2 loaded js) (fun v _ => ∃ hosts, decodeHosts decoded js = .ok hosts ∧
      ∀ name, v.attributesOf name = hosts.attributesOf name) (fun _ => ¬total) g := by
  induction js with
  | nil => exact fun _ hsame _ => ends_pure ⟨_, rfl, hsame⟩
  | cons j js ih =>
    intro g loaded decoded hready hsame htotal
    have hj : total → ∃ r, FTPVirtualHost.ofJson j = .ok r ∧ ∀ h, r = some h → h.userFile ∈ F ∨
        h.userFile = [] := by
      intro ht
      obtain ⟨⟨hosts, hosts_ok⟩, hfiles⟩ := htotal ht
      obtain ⟨r, hr, _⟩ := Json.bind_eq_ok.1 hosts_ok
      exact ⟨r, hr, fun h hrh => hfiles j List.mem_cons_self h (hrh ▸ hr)⟩
    refine ends_bind ((FTPVirtualHost.read_hostFiling hready hj).mono ?_ fun _ h => h)
    rintro r g' ⟨hready', r', hr', hattributes⟩
    have hfiles : total → ∀ j ∈ js, ∀ h, FTPVirtualHost.ofJson j = .ok (some h) → h.userFile ∈ F ∨
        h.userFile = [] :=
      fun ht j' hj' => (htotal ht).2 j' (List.mem_cons_of_mem _ hj')
    cases r with
    | none =>
      cases r' with
      | none =>
        rw [decodeHosts_none hr'] at htotal ⊢
        exact ih hready' hsame fun ht => ⟨(htotal ht).1, hfiles ht⟩
      | some host' => cases hattributes
    | some host =>
      cases r' with
      | none => cases hattributes
      | some host' =>
        rw [decodeHosts_some hr'] at htotal ⊢
        have hhost : host.attributes = host'.attributes := Option.some.inj hattributes
        have hname : host.hostname_ = host'.hostname_ := congrArg HostAttributes.hostname hhost
        refine ih hready' (fun name => ?_) fun ht => ⟨(htotal ht).1, hfiles ht⟩
        by_cases hn : name = host.hostname_
        · rw [hn, VirtualHosts.attributesOf_add_self, hname, VirtualHosts.attributesOf_add_self, hhost]
        · rw [VirtualHosts.attributesOf_add_ne hn, VirtualHosts.attributesOf_add_ne (hname ▸ hn), hsame]

variable {m : FTPVirtualHostManager}

def Holds (m : FTPVirtualHostManager) (f : StoredFile) : Prop :=
  ∃ hosts, storedHosts f = .ok hosts ∧ ∀ name, m.virtual_hosts_.attributesOf name = hosts.attributesOf name

lemma loadDocument_hostFiling {root : Json} (hready : total → Ready F g)
    (hhosts : total → ∃ hosts, storedHosts (.json root) = .ok hosts)
    (hfiles : total → ∀ entries, hostsArray root = .ok entries → ∀ j ∈ entries, ∀ h,
      FTPVirtualHost.ofJson j = .ok (some h) →
      h.userFile ∈ F ∨ h.userFile = []) :
    Ends (hostFiling total) (do
      let entries ← checked (hostsArray root)
      let loaded ← readHosts pbkdf2 .empty entries
      return (true, { m with virtual_hosts_ := loaded }))
      (fun r _ => r.1 = true ∧ r.2.virtual_hosts_file_ = m.virtual_hosts_file_ ∧ r.2.Holds (.json root))
        (fun _ => ¬total) g := by
  have hstored {entries : List Json} (he : hostsArray root = .ok entries) :
      storedHosts (.json root) = decodeHosts .empty entries := by
    rw [storedHosts, he]
    rfl
  refine ends_bind (checked_ends (fun entries he => ?_) fun e he ht => ?_)
  · refine ends_bind ((readHosts_hostFiling hready (fun _ => rfl) fun ht => ⟨?_, hfiles ht entries he⟩).mono
      ?_ fun _ h => h)
    · exact hstored he ▸ hhosts ht
    · rintro loaded g' ⟨hosts, hdecoded, hsame⟩
      exact ends_pure ⟨rfl, rfl, hosts, (hstored he).trans hdecoded, hsame⟩
  · obtain ⟨hosts, hh⟩ := hhosts ht
    obtain ⟨entries, he', _⟩ := Json.bind_eq_ok.1 hh
    cases he.symm.trans he'

lemma construct_hostFiling (virtual_hosts_file : Str) (hfile : virtual_hosts_file ≠ []) :
    Ends (hostFiling False) (construct pbkdf2 virtual_hosts_file)
      (fun m _ => m.virtual_hosts_file_ = virtual_hosts_file ∧
      m.Holds (g virtual_hosts_file)) (fun _ => True) g := by
  refine ends_ite (fun h => absurd h hfile) fun _ => ends_bind ?_
  refine ends_ite (fun h => absurd h hfile) fun _ => ?_
  refine ends_bind (ends_perform trivial fun found hfound => ?_)
  obtain rfl : found = g virtual_hosts_file := hfound
  cases hcontent : g virtual_hosts_file with
  | missing => exact ends_pure (ends_pure ⟨rfl, .empty, rfl, fun _ => rfl⟩)
  | unparsable => exact ends_pure (ends_pure ⟨rfl, .empty, rfl, fun _ => rfl⟩)
  | json root =>
    refine (loadDocument_hostFiling (F := ∅) nofun nofun nofun).mono (fun r g' h => ends_pure ⟨h.2.1, h.2.2⟩)
      fun _ _ => trivial

lemma saveVirtualHosts_hostFiling (filename : Str) : Ends (hostFiling total) (m.saveVirtualHosts filename)
    (fun b g' => b = true → (if filename = [] then m.virtual_hosts_file_ else filename) ≠ [] ∧
      ∃ updated, g' (if filename = [] then m.virtual_hosts_file_ else filename) = .json (m.toJson updated))
    (fun _ => False) g := by
  refine ends_ite (fun _ => ends_pure nofun) fun hfile => ends_bind ?_
  have hdirectories :
    Ends (hostFiling total) (if Path.hasParentPath (if filename = [] then m.virtual_hosts_file_ else filename)
      then request
        (.createDirectories (Path.parentPath (if filename = [] then m.virtual_hosts_file_ else filename)))
      else pure none : Storing (Option Errc)) (fun _ g' => g' = g) (fun _ => False) g :=
    ends_ite (fun _ => ends_perform trivial fun r hr => rfl) fun _ => ends_pure rfl
  refine hdirectories.mono ?_ fun _ h => h
  rintro failure _ rfl
  refine ends_ite (fun _ => ends_pure nofun) fun _ => ?_
  refine ends_bind (ends_perform trivial fun updated _ => ?_)
  refine ends_bind (ends_perform trivial fun opened _ => ?_)
  cases opened with
  | false => exact ends_pure nofun
  | true =>
    refine ends_bind (ends_perform trivial fun _ _ => ?_)
    refine ends_pure fun _ => ?_
    exact ⟨hfile, updated, Function.update_self _ _ _⟩

lemma Holds.inRange {f : StoredFile} (h : m.Holds f) : m.virtual_hosts_.InRange := by
  obtain ⟨hosts, hstored, hsame⟩ := h
  exact (storedHosts_inRange hstored).congr hsame

def Leaves (file hostname : Str) (v : VirtualHosts) (g : Str → StoredFile) : Prop :=
  ∃ (m : FTPVirtualHostManager) (updated : Int), g file = .json (m.toJson updated) ∧ m.virtual_hosts_.InRange ∧
    ∀ name ≠ hostname, m.virtual_hosts_.attributesOf name = v.attributesOf name

section

variable {hostname : Str} {host : FTPVirtualHost}

lemma save_leaves {v : VirtualHosts} {hosts : VirtualHosts} (hv : v.InRange)
    (hsame : ∀ name ≠ hostname, v.attributesOf name = hosts.attributesOf name) :
    Ends (hostFiling False) ({ m with virtual_hosts_ := v }.saveVirtualHosts [])
      (fun b g' => b = true → Leaves m.virtual_hosts_file_ hostname hosts g') (fun _ => True) g := by
  refine (saveVirtualHosts_hostFiling []).mono (fun b g' h hb => ?_) fun _ _ => trivial
  obtain ⟨_, updated, hg⟩ := h hb
  exact ⟨_, updated, hg, hv, hsame⟩

lemma persist_leaves {v : VirtualHosts} {hosts : VirtualHosts} (hfile : m.virtual_hosts_file_ ≠ [])
    (hv : v.InRange)
    (hsame : ∀ name ≠ hostname, v.attributesOf name = hosts.attributesOf name) :
    Ends (hostFiling False) { m with virtual_hosts_ := v }.persistIfConfigured
      (fun b g' => b = true → Leaves m.virtual_hosts_file_ hostname hosts g') (fun _ => True) g :=
  ends_ite (fun _ => save_leaves hv hsame) fun h => absurd hfile h

lemma removeVirtualHost_leaves (hfile : m.virtual_hosts_file_ ≠ []) (hm : m.virtual_hosts_.InRange) :
    Ends (hostFiling False) (m.removeVirtualHost hostname)
      (fun r g' => r.1 = true → Leaves m.virtual_hosts_file_ hostname m.virtual_hosts_ g') (fun _ => True) g := by
  refine ends_ite (fun _ => ends_bind ?_) fun _ => ends_pure nofun
  have hsame : ∀ name ≠ hostname, (m.virtual_hosts_.erase hostname).attributesOf name =
      m.virtual_hosts_.attributesOf name :=
    fun name hn => VirtualHosts.attributesOf_erase_ne hn
  exact (persist_leaves hfile (hm.erase hostname) hsame).mono (fun b g' h => ends_pure h) fun _ h => h

lemma addVirtualHost_leaves (hfile : m.virtual_hosts_file_ ≠ []) (hm : m.virtual_hosts_.InRange)
    (hhost : host.InRange) :
    Ends (hostFiling False) (m.addVirtualHost host)
      (fun r g' => r.1 = true → Leaves m.virtual_hosts_file_ host.hostname_ m.virtual_hosts_ g')
        (fun _ => True) g := by
  refine ends_ite (fun _ => ends_pure nofun) fun _ => ?_
  refine ends_ite (fun _ => ends_pure nofun) fun _ => ends_bind ?_
  have hsame : ∀ name ≠ host.hostname_, (m.virtual_hosts_.add host).attributesOf name =
      m.virtual_hosts_.attributesOf name :=
    fun name hn => VirtualHosts.attributesOf_add_ne hn
  refine (persist_leaves hfile (hm.add hhost) hsame).mono (fun b g' h => ?_) fun _ h => h
  refine ends_ite (fun hb => ends_pure fun _ => h hb) fun _ => ends_bind ?_
  have hremoved : Ends (hostFiling False) (FTPVirtualHostManager.removeVirtualHost
      { m with virtual_hosts_ := m.virtual_hosts_.add host } host.hostname_) _ (fun _ => True) g' :=
    removeVirtualHost_leaves hfile (hm.add hhost)
  exact hremoved.mono (fun _ _ _ => ends_pure nofun) fun _ h => h

lemma saveHost_leaves (hm : m.virtual_hosts_.InRange) (hhost : host.InRange) :
    Ends (hostFiling False) (m.saveHost host)
      (fun b g' => b = true → Leaves m.virtual_hosts_file_ host.hostname_ m.virtual_hosts_ g') (fun _ => True) g :=
  save_leaves (hm.add hhost) fun _ hn => VirtualHosts.attributesOf_add_ne hn

end

end FTPVirtualHostManager

structure VirtualHostCliOptions.InRange (opts : VirtualHostCliOptions) : Prop where
  max_sessions : ∀ n, opts.max_sessions = some n → -2 ^ 31 ≤ n ∧ n < 2 ^ 31
  storage_quota : ∀ n, opts.storage_quota = some n → n < 2 ^ 64
  bandwidth_quota : ∀ n, opts.bandwidth_quota = some n → n < 2 ^ 64

namespace VirtualHostCliOptions

variable {opts opts' : VirtualHostCliOptions}

def Keeps (r : Option VirtualHostCliOptions) : Prop := ∀ opts, r = some opts → opts.InRange

lemma keeps_same (h : opts.InRange) (hsame : opts'.max_sessions = opts.max_sessions ∧
    opts'.storage_quota = opts.storage_quota ∧ opts'.bandwidth_quota = opts.bandwidth_quota) :
      Keeps (some opts') := by
  intro opts'' he
  cases he
  obtain ⟨hsessions, hstorage, hbandwidth⟩ := hsame
  exact ⟨hsessions ▸ h.max_sessions, hstorage ▸ h.storage_quota, hbandwidth ▸ h.bandwidth_quota⟩

lemma set_inRange (h : opts.InRange) (flag value : Str) : Keeps (opts.set flag value) := by
  unfold set
  apply iteInduction (fun _ => ?_) fun _ => ?_
  · exact keeps_same h ⟨rfl, rfl, rfl⟩
  apply iteInduction (fun _ => ?_) fun _ => ?_
  · exact keeps_same h ⟨rfl, rfl, rfl⟩
  apply iteInduction (fun _ => ?_) fun _ => ?_
  · exact keeps_same h ⟨rfl, rfl, rfl⟩
  apply iteInduction (fun _ => ?_) fun _ => ?_
  · exact keeps_same h ⟨rfl, rfl, rfl⟩
  apply iteInduction (fun _ => ?_) fun _ => ?_
  · exact keeps_same h ⟨rfl, rfl, rfl⟩
  apply iteInduction (fun _ => ?_) fun _ => ?_
  · exact keeps_same h ⟨rfl, rfl, rfl⟩
  apply iteInduction (fun _ => ?_) fun _ => ?_
  · intro opts' he
    obtain ⟨n, hn, rfl⟩ := Option.map_eq_some_iff.1 he
    exact ⟨fun _ hm => Option.some.inj hm ▸ stoi_range hn, h.storage_quota, h.bandwidth_quota⟩
  apply iteInduction (fun _ => ?_) fun _ => ?_
  · intro opts' he
    obtain ⟨n, hn, rfl⟩ := Option.map_eq_some_iff.1 he
    exact ⟨h.max_sessions, fun _ hm => Option.some.inj hm ▸ stoull_range hn, h.bandwidth_quota⟩
  apply iteInduction (fun _ => ?_) fun _ => ?_
  · intro opts' he
    obtain ⟨n, hn, rfl⟩ := Option.map_eq_some_iff.1 he
    exact ⟨h.max_sessions, h.storage_quota, fun _ hm => Option.some.inj hm ▸ stoull_range hn⟩
  apply iteInduction (fun _ => ?_) fun _ => ?_
  · exact keeps_same h ⟨rfl, rfl, rfl⟩
  · exact keeps_same h ⟨rfl, rfl, rfl⟩

lemma parse_inRange {args : List Str} : ∀ {opts : VirtualHostCliOptions}, opts.InRange →
    parseVirtualHostOptions opts args = some opts' → opts'.InRange := by
  induction args using List.twoStepInduction with
  | nil | singleton =>
    intro opts h hp
    cases hp
    exact h
  | cons_cons flag value args ih _ =>
    intro opts h hp
    obtain ⟨opts'', hs, hp⟩ := Option.bind_eq_some_iff.1 hp
    exact ih (set_inRange h flag value opts'' hs) hp

lemma configure_hostFiling {host : FTPVirtualHost} (h : opts.InRange) (hhost : host.InRange) :
    Ends (hostFiling False) (opts.configure pbkdf2 host) (fun host' _ => host'.hostname_ = host.hostname_ ∧
      host'.InRange)
      (fun _ => True) g := by
  have hsessions : -2 ^ 31 ≤ opts.max_sessions.getD host.max_sessions_ ∧
      opts.max_sessions.getD host.max_sessions_ < 2 ^ 31 := by
    cases hm : opts.max_sessions with
    | none => exact hhost.max_sessions
    | some n => exact h.max_sessions n hm
  have hstorage : opts.storage_quota.getD host.storage_quota_bytes_ < 2 ^ 64 := by
    cases hm : opts.storage_quota with
    | none => exact hhost.storage_quota_bytes
    | some n => exact h.storage_quota n hm
  have hbandwidth : opts.bandwidth_quota.getD host.bandwidth_quota_bytes_ < 2 ^ 64 := by
    cases hm : opts.bandwidth_quota with
    | none => exact hhost.bandwidth_quota_bytes
    | some n => exact h.bandwidth_quota n hm
  refine ends_ite (fun _ => ends_bind ?_) fun _ => ends_pure ⟨rfl, hsessions, hstorage, hbandwidth⟩
  refine (FTPUserManager.construct_hostFiling (F := ∅) nofun).mono (fun users _ _ => ?_) fun _ _ => trivial
  exact ends_pure ⟨rfl, hsessions, hstorage, hbandwidth⟩

end VirtualHostCliOptions

namespace FTPVirtualHostManager

variable {m : FTPVirtualHostManager} {opts : VirtualHostCliOptions}

/-- An operation of the `virtual` command that reports success has saved the file, and the hosts it
is not about are those of the manager. -/
def SavesOthers (m : FTPVirtualHostManager) (hostname : Str) (p : Storing Bool) : Prop :=
  ∀ g, Ends (hostFiling False) p (fun b g' => b = true → Leaves m.virtual_hosts_file_ hostname m.virtual_hosts_ g')
    (fun _ => True) g

lemma virtualAdd_saves (hfile : m.virtual_hosts_file_ ≠ []) (hm : m.virtual_hosts_.InRange) (h : opts.InRange) :
    m.SavesOthers opts.hostname (m.virtualAdd pbkdf2 opts) := by
  intro g
  refine ends_ite (fun _ => ends_pure nofun) fun _ => ends_bind ?_
  have hnew : FTPVirtualHost.InRange { hostname_ := opts.hostname, root_directory_ := opts.root } :=
    ⟨show -2 ^ 31 ≤ (0 : Int) ∧ (0 : Int) < 2 ^ 31 by decide, show 0 < 2 ^ 64 by decide, show 0 < 2 ^ 64 by decide⟩
  refine (VirtualHostCliOptions.configure_hostFiling h hnew).mono (fun host g' hhost => ends_bind ?_) fun _ h => h
  have hname : host.hostname_ = opts.hostname := hhost.1
  rw [← hname]
  exact (addVirtualHost_leaves hfile hm hhost.2).mono (fun r g'' hr => ends_pure hr) fun _ h => h

lemma virtualRemove_saves (hfile : m.virtual_hosts_file_ ≠ []) (hm : m.virtual_hosts_.InRange) :
    m.SavesOthers opts.hostname (m.virtualRemove opts) := by
  intro g
  refine ends_ite (fun _ => ends_pure nofun) fun _ => ends_bind ?_
  exact (removeVirtualHost_leaves hfile hm).mono (fun r g' hr => ends_pure hr) fun _ h => h

lemma virtualEnable_saves (hm : m.virtual_hosts_.InRange) (enabled : Bool) :
    m.SavesOthers opts.hostname (m.virtualEnable opts enabled) := by
  intro g
  refine ends_ite (fun _ => ends_pure nofun) fun _ => ?_
  cases hhost : m.virtual_hosts_.getVirtualHost opts.hostname with
  | none => exact ends_pure nofun
  | some host =>
    have hrange := hm _ host hhost
    have hchanged : FTPVirtualHost.InRange { host with enabled_ := enabled } :=
      ⟨hrange.max_sessions, hrange.storage_quota_bytes, hrange.bandwidth_quota_bytes⟩
    rw [← VirtualHosts.getVirtualHost_hostname hhost]
    exact saveHost_leaves hm hchanged

lemma virtualModify_saves (hm : m.virtual_hosts_.InRange) (h : opts.InRange) :
    m.SavesOthers opts.hostname (m.virtualModify pbkdf2 opts) := by
  intro g
  refine ends_ite (fun _ => ends_pure nofun) fun _ => ?_
  cases hhost : m.virtual_hosts_.getVirtualHost opts.hostname with
  | none => exact ends_pure nofun
  | some host =>
    have hrange := hm _ host hhost
    have hmoved : FTPVirtualHost.InRange { host with root_directory_ := if opts.root ≠ [] then opts.root else
        host.root_directory_ } :=
      ⟨hrange.max_sessions, hrange.storage_quota_bytes, hrange.bandwidth_quota_bytes⟩
    refine ends_bind ((VirtualHostCliOptions.configure_hostFiling h hmoved).mono
      (fun host' g' hhost' => ?_) fun _ h => h)
    have hsame : host.hostname_ = opts.hostname := VirtualHosts.getVirtualHost_hostname hhost
    have hname : host'.hostname_ = opts.hostname := hhost'.1.trans hsame
    rw [← hname]
    exact saveHost_leaves hm hhost'.2

end FTPVirtualHostManager

lemma handleVirtualCommand_saves {vhost_file subcommand : Str} {args : List Str} (hfile : vhost_file ≠ [])
    (hlist : subcommand ≠ "list") :
    Ends (hostFiling False) (handleVirtualCommand pbkdf2 vhost_file (subcommand :: args))
      (fun b g' => b = true → ∃ opts hosts, parseVirtualHostOptions {} args = some opts ∧
        storedHosts (g vhost_file) = .ok hosts ∧ FTPVirtualHostManager.Leaves vhost_file opts.hostname hosts g')
      (fun _ => True) g := by
  refine ends_bind ((FTPVirtualHostManager.construct_hostFiling vhost_file hfile).mono
    (fun m g' hm => ?_) fun _ h => h)
  obtain ⟨rfl, hholds⟩ := hm
  have hrange := hholds.inRange
  obtain ⟨hosts, hstored, hsame⟩ := hholds
  refine ends_ite (fun h => absurd h hlist) fun _ => ?_
  cases hopts : parseVirtualHostOptions {} args with
  | none => exact ends_throw trivial
  | some opts =>
    have hdefault : VirtualHostCliOptions.InRange {} := by constructor <;> exact fun _ h => by cases h
    have hin : opts.InRange := VirtualHostCliOptions.parse_inRange hdefault hopts
    have hsaves {p : Storing Bool} (hp : m.SavesOthers opts.hostname p) : Ends (hostFiling False) p
        (fun b g' => b = true → ∃ opts' hosts', some opts = some opts' ∧
          storedHosts (g m.virtual_hosts_file_) = .ok hosts' ∧
            FTPVirtualHostManager.Leaves m.virtual_hosts_file_ opts'.hostname hosts' g') (fun _ => True) g' := by
      refine (hp g').mono (fun b g'' h hb => ⟨opts, hosts, rfl, hstored, ?_⟩) fun _ h => h
      obtain ⟨m', updated, hg, hrange', hothers⟩ := h hb
      exact ⟨m', updated, hg, hrange', fun name hn => (hothers name hn).trans (hsame name)⟩
    refine ends_ite (fun _ => hsaves (FTPVirtualHostManager.virtualAdd_saves hfile hrange hin)) fun _ => ?_
    refine ends_ite (fun _ => hsaves (FTPVirtualHostManager.virtualRemove_saves hfile hrange)) fun _ => ?_
    refine ends_ite (fun _ => hsaves (FTPVirtualHostManager.virtualEnable_saves hrange _)) fun _ => ?_
    refine ends_ite (fun _ => hsaves (FTPVirtualHostManager.virtualModify_saves hrange hin)) fun _ => ?_
    exact ends_pure nofun

structure Files where
  content : Str → StoredFile
  time : ℕ
  choose : ∀ {β : Type}, ℕ → StoreCall β → β

namespace Files

def answer {β : Type} (w : Files) : StoreCall β → β × Files
  | .read file => (w.content file, w)
  | o => (w.choose w.time o, { w with content := o.after w.content (w.choose w.time o), time := w.time + 1 })

abbrev machine : Machine StoreCall Files := fun _ w o => w.answer o

structure Serves (w : Files) (v : VirtualHosts) : Prop where
  directories : ∀ time p, w.choose time (.createDirectories p) = none
  users : ∀ name h, v.getVirtualHost name = some h → Readable (w.content h.userFile)

lemma machine_hostFiling {total : Prop} : (hostFiling total).Describes machine fun g w =>
    w.content = g ∧ (total → ∀ time p, w.choose time (.createDirectories p) = none) := by
  rintro β g w o ⟨rfl, htotal⟩ _
  cases o with
  | read file => exact ⟨rfl, rfl, htotal⟩
  | createDirectories p => exact ⟨fun ht => htotal ht _ _, rfl, htotal⟩
  | _ => exact ⟨trivial, rfl, htotal⟩

end Files

def VirtualHosts.Keepable (v : VirtualHosts) : Prop := ∀ name a, v.attributesOf name = some a → a.Keepable

lemma attributesOf_kept {v v' : VirtualHosts} {name : Str}
    (h : v'.attributesOf name = (v.attributesOf name).map (·.kept)) :
    v'.attributesOf name = v.attributesOf name ↔ ∀ a, v.attributesOf name = some a → a.Keepable := by
  rw [h]
  cases v.attributesOf name with
  | none => simp
  | some a =>
    simp only [Option.map_some, Option.some.injEq, forall_eq']
    exact HostAttributes.kept_eq_self

lemma saved_hosts_are_loaded {m m₀ : FTPVirtualHostManager} {filename : Str} {w w' : Files}
    (hm : m.virtual_hosts_.InRange)
    (hfile : m₀.virtual_hosts_file_ = m.virtual_hosts_file_)
    (hsave : (m.saveVirtualHosts filename).exec Files.machine w = (.ok true, w'))
    (hserves : w'.Serves m.virtual_hosts_) :
    ∃ m' w'', (m₀.loadVirtualHosts pbkdf2 filename).exec Files.machine w' = (.ok (true, m'), w'') ∧
      ∀ name, m'.virtual_hosts_.attributesOf name = (m.virtual_hosts_.attributesOf name).map (·.kept) := by
  have hsaved : Ends (hostFiling False) (m.saveVirtualHosts filename) _ _ w.content :=
    FTPVirtualHostManager.saveVirtualHosts_hostFiling filename
  rcases hsaved.exec Files.machine_hostFiling ⟨rfl, False.elim⟩ with ⟨b, v, _, he, ⟨rfl, _⟩, hb⟩ | ⟨e,
    v, _, _, _, h⟩
  case inr => exact h.elim
  cases hsave.symm.trans he
  obtain ⟨hne, updated, hcontent⟩ := hb rfl
  obtain ⟨hosts, hstored, hkept⟩ := storedHosts_toJson hm updated
  let F : Set Str := {f | ∃ name h, m.virtual_hosts_.getVirtualHost name = some h ∧ f = h.userFile}
  have hready : Ready F w'.content := by
    rintro _ ⟨name, h, hh, rfl⟩
    exact hserves.users name h hh
  have hfiles : ∀ entries, FTPVirtualHostManager.hostsArray (m.toJson updated) = .ok entries → ∀ j ∈ entries,
      ∀ h, FTPVirtualHost.ofJson j = .ok (some h) → h.userFile ∈ F ∨ h.userFile = [] := by
    intro entries hentries j hj h hh
    cases hentries
    obtain ⟨e, he, rfl⟩ := List.mem_map.1 hj
    have hlookup := AList.mem_lookup_iff.2 he
    obtain ⟨host, hhost, _, hattributes⟩ := FTPVirtualHost.ofJson_toJson (hm e.1 e.2 hlookup)
    cases hhost.symm.trans hh
    exact .inl ⟨e.1, e.2, hlookup, congrArg HostAttributes.user_file hattributes⟩
  have hloaded : Ends (hostFiling True) (m₀.loadVirtualHosts pbkdf2 filename) (fun r _ => r.1 = true ∧
      r.2.Holds (.json (m.toJson updated))) (fun _ => ¬True) w'.content := by
    unfold FTPVirtualHostManager.loadVirtualHosts
    rw [hfile]
    refine ends_ite (fun h => absurd h hne) fun _ => ?_
    refine ends_bind (ends_perform trivial fun found hfound => ?_)
    obtain rfl : found = .json (m.toJson updated) := (show found = _ from hfound).trans hcontent
    exact (FTPVirtualHostManager.loadDocument_hostFiling (fun _ => hready) (fun _ => ⟨hosts, hstored⟩)
      fun _ => hfiles).mono (fun r g h => ⟨h.1, h.2.2⟩) fun _ h => h
  rcases hloaded.exec Files.machine_hostFiling ⟨rfl, fun _ => hserves.directories⟩ with
    ⟨⟨b, m'⟩, w'', _, he', _, htrue, hosts', hstored', hsame⟩ | ⟨_, _, _, _, _, h⟩
  · cases hstored.symm.trans hstored'
    obtain rfl : b = true := htrue
    exact ⟨m', w'', he', fun name => (hsame name).trans (hkept name)⟩
  · exact absurd trivial h

lemma others_are_kept {vhost_file subcommand : Str} {args : List Str} {w w' : Files} (hfile : vhost_file ≠ [])
    (hlist : subcommand ≠ "list")
    (he : (handleVirtualCommand pbkdf2 vhost_file (subcommand :: args)).exec Files.machine w = (.ok true, w')) :
    ∃ opts hosts hosts', parseVirtualHostOptions {} args = some opts ∧
      storedHosts (w.content vhost_file) = .ok hosts ∧
      storedHosts (w'.content vhost_file) = .ok hosts' ∧ ∀ name ≠ opts.hostname,
        hosts'.attributesOf name = (hosts.attributesOf name).map (·.kept) := by
  have hends : Ends (hostFiling False) (handleVirtualCommand pbkdf2 vhost_file (subcommand :: args)) _
      _ w.content :=
    handleVirtualCommand_saves hfile hlist
  rcases hends.exec Files.machine_hostFiling ⟨rfl, False.elim⟩ with ⟨b, v, _, he', ⟨rfl, _⟩, hb⟩ | ⟨e,
    v, _, he', _, _⟩
  · cases he.symm.trans he'
    obtain ⟨opts, hosts, hopts, hstored, m, updated, hcontent, hrange, hothers⟩ := hb rfl
    obtain ⟨hosts', hstored', hkept⟩ := storedHosts_toJson hrange updated
    refine ⟨opts, hosts, hosts', hopts, hstored, hcontent ▸ hstored', fun name hn => ?_⟩
    rw [hkept, hothers name hn]
  · cases he.symm.trans he'

variable (pbkdf2)

theorem virtual_hosts_are_kept :
    (∀ (m m₀ : FTPVirtualHostManager) (filename : Str) (w w' : Files), m.virtual_hosts_.InRange →
      m₀.virtual_hosts_file_ = m.virtual_hosts_file_ →
      (m.saveVirtualHosts filename).exec Files.machine w = (.ok true, w') → w'.Serves m.virtual_hosts_ →
      ∃ m' w'', (m₀.loadVirtualHosts pbkdf2 filename).exec Files.machine w' = (.ok (true, m'), w'') ∧
        ((∀ name, m'.virtual_hosts_.attributesOf name = m.virtual_hosts_.attributesOf name) ↔
          m.virtual_hosts_.Keepable)) ∧
    (∀ (vhost_file subcommand : Str) (args : List Str) (w w' : Files), vhost_file ≠ [] → subcommand ≠ "list" →
      (handleVirtualCommand pbkdf2 vhost_file (subcommand :: args)).exec Files.machine w = (.ok true, w') →
      ∃ opts hosts hosts', parseVirtualHostOptions {} args = some opts ∧
        storedHosts (w.content vhost_file) = .ok hosts ∧
        storedHosts (w'.content vhost_file) = .ok hosts' ∧ ∀ name ≠ opts.hostname,
          (hosts'.attributesOf name = hosts.attributesOf name ↔ ∀ a, hosts.attributesOf name = some a →
            a.Keepable)) := by
  constructor
  · intro m m₀ filename w w' hm hfile hsave hserves
    obtain ⟨m', w'', he, hkept⟩ := saved_hosts_are_loaded hm hfile hsave hserves
    refine ⟨m', w'', he, ?_⟩
    have hiff : (∀ name, m'.virtual_hosts_.attributesOf name = m.virtual_hosts_.attributesOf name) ↔
        ∀ name a, m.virtual_hosts_.attributesOf name = some a → a.Keepable :=
      forall_congr' fun name => attributesOf_kept (hkept name)
    exact hiff
  · intro vhost_file subcommand args w w' hfile hlist he
    obtain ⟨opts, hosts, hosts', hopts, hstored, hstored', hkept⟩ := others_are_kept hfile hlist he
    refine ⟨opts, hosts, hosts', hopts, hstored, hstored', fun name hn => ?_⟩
    exact attributesOf_kept (hkept name hn)

namespace Files

def sampleDocument : Json := .object [("virtual_hosts", .array [
  .object [("hostname", .string "a"), ("root_directory", .string "/a")],
  .object [("hostname", .string "b"), ("root_directory", .string "/b"),
    ("custom_errors", .object [("530", .string "no")])]])]

def sample : Files :=
  ⟨fun file => if file = "/v" then .json sampleDocument else .missing, 0, fun _ o => o.favourable⟩

def samplePlain : FTPVirtualHostManager :=
  ⟨VirtualHosts.empty.add { hostname_ := "a", root_directory_ := "/a" }, "/v"⟩

lemma samplePlain_host {name : Str} {h : FTPVirtualHost}
    (hl : samplePlain.virtual_hosts_.getVirtualHost name = some h) :
    h = { hostname_ := "a", root_directory_ := "/a" } := by
  rcases lookup_of_insert hl with ⟨_, rfl⟩ | hl
  · rfl
  · cases hl

end Files

theorem virtual_hosts_are_kept_plain : ∃ m' w w'',
    (Files.samplePlain.loadVirtualHosts (fun _ _ _ _ => none) []).exec Files.machine w = (.ok (true, m'), w'') ∧
      ∀ name, m'.virtual_hosts_.attributesOf name = Files.samplePlain.virtual_hosts_.attributesOf name := by
  have hrange : Files.samplePlain.virtual_hosts_.InRange := fun name h hl => by
    rw [Files.samplePlain_host hl]
    exact ⟨show -2 ^ 31 ≤ (0 : Int) ∧
      (0 : Int) < 2 ^ 31 by decide, show 0 < 2 ^ 64 by decide, show 0 < 2 ^ 64 by decide⟩
  have hserves : Files.Serves ((Files.samplePlain.saveVirtualHosts []).exec Files.machine Files.sample).2
      Files.samplePlain.virtual_hosts_ := by
    refine ⟨fun _ _ => rfl, fun name h hl => ?_⟩
    rw [Files.samplePlain_host hl]
    exact trivial
  obtain ⟨m', w'', he, hiff⟩ :=
    (virtual_hosts_are_kept fun _ _ _ _ => none).1 Files.samplePlain Files.samplePlain [] Files.sample _
    hrange rfl (Prod.ext (by decide +kernel) rfl) hserves
  refine ⟨m', _, w'', he, hiff.2 fun name a ha => ?_⟩
  obtain ⟨h, hl, rfl⟩ := Option.map_eq_some_iff.1 ha
  rw [Files.samplePlain_host hl]
  exact ⟨le_refl _, fun _ => rfl⟩

theorem virtual_hosts_are_not_kept : ∃ w' hosts hosts', (handleVirtualCommand (fun _ _ _ _ => none) "/v"
    ["disable", "--hostname", "a"]).exec Files.machine Files.sample = (.ok true, w') ∧
      storedHosts (Files.sample.content "/v") = .ok hosts ∧ storedHosts (w'.content "/v") = .ok hosts' ∧
        hosts'.attributesOf "b" ≠ hosts.attributesOf "b" := by
  have he : ((handleVirtualCommand (fun _ _ _ _ => none) "/v" ["disable", "--hostname", "a"]).exec
      Files.machine Files.sample).1 = .ok true := by decide +kernel
  have herror : (storedHosts (Files.sample.content "/v")).toOption.map
      (fun hosts => (hosts.attributesOf "b").map (·.custom_error "530")) = some (some (ascii "no")) := by
        decide +kernel
  obtain ⟨opts, hosts, hosts', hopts, hstored, hstored', hkept⟩ :=
    others_are_kept (by decide) (by decide) (Prod.ext he rfl)
  have hname : (parseVirtualHostOptions {} ["--hostname", "a"]).map (·.hostname) = some (ascii "a") := by decide
  rw [hopts] at hname
  have htarget : opts.hostname = "a" := Option.some.inj hname
  have hother : ascii "b" ≠ opts.hostname := by
    rw [htarget]
    decide
  refine ⟨_, hosts, hosts', Prod.ext he rfl, hstored, hstored', fun hsame => ?_⟩
  rw [hstored] at herror
  obtain ⟨a, ha, hno⟩ := Option.map_eq_some_iff.1 (Option.some.inj herror)
  have hnone : a.custom_error "530" = [] := (((attributesOf_kept (hkept _ hother)).1 hsame) a ha).custom_error _
  cases hno.symm.trans hnone

end SimpleSftpd
