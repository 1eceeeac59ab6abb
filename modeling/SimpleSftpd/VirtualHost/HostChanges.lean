import SimpleSftpd.User.UserChanges
import SimpleSftpd.VirtualHost.SavedHosts

namespace SimpleSftpd

open Cxx Interaction Prog

namespace VirtualHosts

variable {v : VirtualHosts} {host : FTPVirtualHost} {hostname : Str}

lemma ext_map {v' : VirtualHosts} (h : v.map = v'.map) : v = v' := by
  cases v
  cases v'
  cases h
  rfl

lemma erase_add (hnew : v.getVirtualHost host.hostname_ = none) : (v.add host).erase host.hostname_ = v := by
  apply ext_map
  apply AList.ext
  have hmem : host.hostname_ ∉ v.map := AList.lookup_eq_none.1 hnew
  change List.kerase host.hostname_ (v.map.insert host.hostname_ host).entries = v.map.entries
  rw [AList.entries_insert_of_notMem hmem]
  exact List.kerase_cons_eq rfl

end VirtualHosts

namespace FTPVirtualHostManager

variable {m : FTPVirtualHostManager} {w : Filing}

lemma saveVirtualHosts_saving (hfile : m.virtual_hosts_file_ ≠ []) : Ends saving (m.saveVirtualHosts [])
    (fun b w' => w.Saves w' m.virtual_hosts_file_ m.toJson b) (fun _ => False) w := by
  apply ends_ite
  · intro h
    exact absurd h hfile
  intro _
  apply ends_bind
  apply (directories_saving _).mono ?_ fun _ => id
  rintro failure w' ⟨hcontent, hrefused⟩
  apply ends_ite
  · intro hsome
    exact ends_pure ⟨by simp [hrefused, hsome], hcontent⟩
  · intro hnone
    have hsame : w'.refused = w.refused := by
      rw [hrefused, Bool.eq_false_iff.2 hnone, Bool.or_false]
    apply (document_saving _ _).mono ?_ fun _ => id
    intro b w'' h
    cases b with
    | false => exact ⟨h.1, h.2.trans hcontent⟩
    | true => exact ⟨h.1.trans hsame, hcontent ▸ h.2⟩

def Describes (m : FTPVirtualHostManager) (f : StoredFile) : Prop := (∃ root, f = .json root) ∧ m.Holds f

lemma describes_iff_saved {w' : Filing} (hm : m.virtual_hosts_.InRange)
    (h : w.Saves w' m.virtual_hosts_file_ m.toJson true) :
    m.Describes (w'.content m.virtual_hosts_file_) ↔ w'.lost = false ∧ m.virtual_hosts_.Keepable := by
  obtain ⟨_, updated, hcontent⟩ := h
  rw [hcontent, Function.update_self]
  cases hlost : w'.lost with
  | true => simp [Describes]
  | false =>
    obtain ⟨hosts, hstored, hkept⟩ := storedHosts_toJson hm updated
    have hdescribes : m.Describes (.json (m.toJson updated)) ↔
        ∀ name, m.virtual_hosts_.attributesOf name = hosts.attributesOf name := by
      constructor
      · rintro ⟨_, hosts', hstored', hsame⟩
        cases hstored.symm.trans hstored'
        exact hsame
      · intro hsame
        exact ⟨⟨_, rfl⟩, hosts, hstored, hsame⟩
    simp only [Bool.false_eq_true, if_false, true_and]
    rw [hdescribes]
    apply forall_congr'
    intro name
    rw [eq_comm]
    exact attributesOf_kept (hkept name)

def Persists (m : FTPVirtualHostManager) (w w' : Filing) (b : Bool) : Prop :=
  (m.virtual_hosts_file_ = [] → b = true) ∧
    (m.virtual_hosts_file_ ≠ [] → w.Saves w' m.virtual_hosts_file_ m.toJson b)

lemma persistIfConfigured_saving :
    Ends saving m.persistIfConfigured (fun b w' => m.Persists w w' b) (fun _ => False) w := by
  apply ends_ite
  · intro hfile
    apply (saveVirtualHosts_saving hfile).mono ?_ fun _ => id
    intro b w' h
    exact ⟨fun hnone => absurd hnone hfile, fun _ => h⟩
  · intro hnone
    exact ends_pure ⟨fun _ => rfl, fun hfile => absurd hfile hnone⟩

lemma removeVirtualHost_saving {hostname : Str}
    (hhost : (m.virtual_hosts_.getVirtualHost hostname).isSome = true) :
    Ends saving (m.removeVirtualHost hostname) (fun r w' =>
      r.2 = { m with virtual_hosts_ := m.virtual_hosts_.erase hostname } ∧
        r.2.Persists w w' r.1) (fun _ => False) w := by
  apply ends_ite
  · intro _
    apply ends_bind
    apply (persistIfConfigured_saving (m :=
      { m with virtual_hosts_ := m.virtual_hosts_.erase hostname })).mono ?_ fun _ => id
    intro b w' h
    exact ends_pure ⟨rfl, h⟩
  · intro h
    exact absurd hhost h

lemma addVirtualHost_saving {host : FTPVirtualHost} (hname : host.hostname_ ≠ [])
    (hnew : (m.virtual_hosts_.getVirtualHost host.hostname_).isSome = false) :
    Ends saving (m.addVirtualHost host) (fun r w' =>
      (r.1 = true ∧ r.2 = { m with virtual_hosts_ := m.virtual_hosts_.add host } ∧
        r.2.Persists w w' true) ∨
      r.1 = false ∧ r.2 = m ∧ w'.refused = true) (fun _ => False) w := by
  apply ends_ite
  · intro h
    exact absurd h hname
  intro _
  apply ends_ite
  · intro h
    exact absurd (hnew.symm.trans h) (by decide)
  intro _
  apply ends_bind
  apply (persistIfConfigured_saving (m := { m with virtual_hosts_ := m.virtual_hosts_.add host })).mono ?_
    fun _ => id
  intro b w' h
  cases b with
  | true => exact ends_pure (.inl ⟨rfl, rfl, h⟩)
  | false =>
    have hfile : m.virtual_hosts_file_ ≠ [] := fun hfile => by cases h.1 hfile
    have hadded : ((m.virtual_hosts_.add host).getVirtualHost host.hostname_).isSome = true := by
      rw [VirtualHosts.getVirtualHost_add_self]
      rfl
    have hnone : m.virtual_hosts_.getVirtualHost host.hostname_ = none := by simpa using hnew
    apply ends_bind
    apply (removeVirtualHost_saving (m := { m with virtual_hosts_ := m.virtual_hosts_.add host }) hadded).mono
      ?_ fun _ => id
    rintro ⟨done, m'⟩ w'' ⟨hm', hpersists⟩
    simp only at hm' hpersists
    have hfile' : m'.virtual_hosts_file_ = m.virtual_hosts_file_ := by rw [hm']
    have hsaves := hpersists.2 (hfile' ▸ hfile)
    refine ends_pure (.inr ⟨rfl, ?_, ?_⟩)
    · simp only
      rw [hm', VirtualHosts.erase_add hnone]
    · cases done with
      | false => exact hsaves.1
      | true => exact hsaves.1.trans (h.2 hfile).1

def Atomic (m m' : FTPVirtualHostManager) (done : Bool) (f : StoredFile) : Prop :=
  (done = true → m.virtual_hosts_file_ ≠ [] → m'.Describes f) ∧ (done = false → m' = m)

lemma addVirtualHost_atomic (hm : m.virtual_hosts_.InRange) {host : FTPVirtualHost} (hhost : host.InRange)
    (hw : w.refused = false) : Ends saving (m.addVirtualHost host) (fun r w' =>
      m.Atomic r.2 r.1 (w'.content m.virtual_hosts_file_) ↔ host.hostname_ = [] ∨
        (m.virtual_hosts_.getVirtualHost host.hostname_).isSome = true ∨ m.virtual_hosts_file_ = [] ∨
          w'.refused = true ∨
        w'.lost = false ∧ (m.virtual_hosts_.add host).Keepable) (fun _ => False) w := by
  have hunchanged : m.Atomic m false (w.content m.virtual_hosts_file_) := ⟨fun h => (by cases h), fun _ => rfl⟩
  by_cases hname : host.hostname_ = []
  · rw [addVirtualHost, if_pos hname]
    exact ends_pure (iff_of_true hunchanged (.inl hname))
  cases hnew : (m.virtual_hosts_.getVirtualHost host.hostname_).isSome with
  | true =>
    rw [addVirtualHost, if_neg hname, hnew]
    exact ends_pure (iff_of_true hunchanged (.inr (.inl rfl)))
  | false =>
    apply (addVirtualHost_saving hname hnew).mono ?_ fun _ => id
    rintro ⟨done, m'⟩ w' (⟨hdone, hm', hpersists⟩ | ⟨hdone, hm', hrefused⟩)
    · simp only at hdone hm'
      subst hdone hm'
      by_cases hfile : m.virtual_hosts_file_ = []
      · exact iff_of_true ⟨fun _ h => absurd hfile h, fun h => by cases h⟩ (.inr (.inr (.inl hfile)))
      · have hsaves := hpersists.2 hfile
        have hdescribes := describes_iff_saved (hm.add hhost) hsaves
        have hopened : w'.refused = false := hsaves.1.trans hw
        simp only [Atomic, hname, hfile, hopened, Bool.false_eq_true, false_or, ne_eq,
          not_false_eq_true, forall_const]
        simpa using hdescribes
    · simp only at hdone hm'
      subst hdone hm'
      exact iff_of_true ⟨fun h => (by cases h), fun _ => rfl⟩ (.inr (.inr (.inr (.inl hrefused))))

lemma removeVirtualHost_atomic (hm : m.virtual_hosts_.InRange) (hostname : Str) (hw : w.refused = false) :
    Ends saving (m.removeVirtualHost hostname) (fun r w' =>
      m.Atomic r.2 r.1 (w'.content m.virtual_hosts_file_) ↔
        (m.virtual_hosts_.getVirtualHost hostname).isSome = false ∨ m.virtual_hosts_file_ = [] ∨
        w'.refused = false ∧ w'.lost = false ∧ (m.virtual_hosts_.erase hostname).Keepable) (fun _ => False) w := by
  cases hhost : (m.virtual_hosts_.getVirtualHost hostname).isSome with
  | false =>
    rw [removeVirtualHost, hhost]
    exact ends_pure (iff_of_true ⟨fun h => (by cases h), fun _ => rfl⟩ (.inl rfl))
  | true =>
    apply (removeVirtualHost_saving hhost).mono ?_ fun _ => id
    rintro ⟨done, m'⟩ w' ⟨hm', hpersists⟩
    simp only at hm'
    subst hm'
    by_cases hfile : m.virtual_hosts_file_ = []
    · have hdone : done = true := hpersists.1 hfile
      subst hdone
      exact iff_of_true ⟨fun _ h => absurd hfile h, fun h => by cases h⟩ (.inr (.inl hfile))
    have hsaves := hpersists.2 hfile
    have hgone : { m with virtual_hosts_ := m.virtual_hosts_.erase hostname } ≠ m := by
      intro h
      have hlookup : (m.virtual_hosts_.erase hostname).getVirtualHost hostname = none := AList.lookup_erase _ _
      have herased : m.virtual_hosts_.erase hostname = m.virtual_hosts_ := congrArg virtual_hosts_ h
      rw [← herased, hlookup] at hhost
      cases hhost
    cases done with
    | false =>
      refine iff_of_false (fun h => hgone (h.2 rfl)) ?_
      simp only at hsaves
      rintro (h | h | h)
      · cases h
      · exact hfile h
      · cases h.1.symm.trans hsaves.1
    | true =>
      have hdescribes := describes_iff_saved (hm.erase hostname) hsaves
      have hopened : w'.refused = false := hsaves.1.trans hw
      simp only [Atomic, hfile, hopened, Bool.true_eq_false, false_or, ne_eq, not_false_eq_true,
        forall_const, true_and]
      simpa using hdescribes

end FTPVirtualHostManager

theorem virtual_host_changes_are_atomic {m : FTPVirtualHostManager} (hm : m.virtual_hosts_.InRange) (w : Store) :
    (∀ host : FTPVirtualHost, host.InRange → ∃ done m' w',
      (m.addVirtualHost host).exec Store.machine w.begin = (.ok (done, m'), w') ∧
        (m.Atomic m' done (w'.filing.content m.virtual_hosts_file_) ↔ host.hostname_ = [] ∨
          (m.virtual_hosts_.getVirtualHost host.hostname_).isSome = true ∨ m.virtual_hosts_file_ = [] ∨
          w'.filing.refused = true ∨ w'.filing.lost = false ∧ (m.virtual_hosts_.add host).Keepable)) ∧
    ∀ hostname : Str, ∃ done m' w', (m.removeVirtualHost hostname).exec Store.machine w.begin =
      (.ok (done, m'), w') ∧
      (m.Atomic m' done (w'.filing.content m.virtual_hosts_file_) ↔
        (m.virtual_hosts_.getVirtualHost hostname).isSome = false ∨ m.virtual_hosts_file_ = [] ∨
        w'.filing.refused = false ∧ w'.filing.lost = false ∧ (m.virtual_hosts_.erase hostname).Keepable) := by
  constructor
  · intro host hhost
    have hadd := FTPVirtualHostManager.addVirtualHost_atomic (w := w.begin.filing) hm hhost rfl
    rcases hadd.exec saving_describes rfl with ⟨⟨done, m'⟩, w', _, he, rfl, h⟩ | ⟨_, _, _, _, _, h⟩
    · exact ⟨done, m', w', he, h⟩
    · exact h.elim
  · intro hostname
    have hremove := FTPVirtualHostManager.removeVirtualHost_atomic (w := w.begin.filing) hm hostname rfl
    rcases hremove.exec saving_describes rfl with ⟨⟨done, m'⟩, w', _, he, rfl, h⟩ | ⟨_, _, _, _, _, h⟩
    · exact ⟨done, m', w', he, h⟩
    · exact h.elim

namespace FTPVirtualHostManager

def storeOf (opens keeps : Bool) : Store :=
  ⟨⟨fun _ => .missing, false, false, 0, fun _ => keeps⟩, fun _ c => match c with
  | .truncate _ => opens
  | c => c.favourable⟩

def sampleRemoval : Except Thrown (Bool × FTPVirtualHostManager) × Store :=
  (Files.samplePlain.removeVirtualHost "a").exec Store.machine (storeOf false true).begin

def sampleAddition : Except Thrown (Bool × FTPVirtualHostManager) × Store :=
  (Files.samplePlain.addVirtualHost { hostname_ := "b", root_directory_ := "/b" }).exec Store.machine
    (storeOf true false).begin

def legible (w : Store) : Bool := match w.filing.content Files.samplePlain.virtual_hosts_file_ with
  | .json _ => true
  | _ => false

lemma legible_of_describes {m : FTPVirtualHostManager} {w : Store}
    (h : m.Describes (w.filing.content Files.samplePlain.virtual_hosts_file_)) :
    legible w = true := by
  obtain ⟨⟨root, hroot⟩, _⟩ := h
  rw [legible, hroot]

lemma eq_ok_of_toOption {ε α : Type} {x : Except ε α} {a : α} (h : x.toOption = some a) : x = .ok a := by
  cases x with
  | error e => cases h
  | ok b => exact congrArg Except.ok (Option.some.inj h)

lemma samplePlain_inRange : Files.samplePlain.virtual_hosts_.InRange := by
  intro name h hl
  rw [Files.samplePlain_host hl]
  exact ⟨show -2 ^ 31 ≤ (0 : Int) ∧
    (0 : Int) < 2 ^ 31 by decide, show 0 < 2 ^ 64 by decide, show 0 < 2 ^ 64 by decide⟩

end FTPVirtualHostManager

theorem virtual_host_changes_are_atomic_remove : ∃ done m' w',
    (Files.samplePlain.removeVirtualHost "a").exec Store.machine (FTPVirtualHostManager.storeOf true true).begin =
        (.ok (done, m'), w') ∧
      Files.samplePlain.Atomic m' done (w'.filing.content Files.samplePlain.virtual_hosts_file_) := by
  obtain ⟨done, m', w', he, hiff⟩ := (virtual_host_changes_are_atomic FTPVirtualHostManager.samplePlain_inRange
    (FTPVirtualHostManager.storeOf true true)).2 "a"
  have hsaved : (((Files.samplePlain.removeVirtualHost "a").exec Store.machine
      (FTPVirtualHostManager.storeOf true true).begin).2.filing.refused,
      ((Files.samplePlain.removeVirtualHost "a").exec Store.machine
        (FTPVirtualHostManager.storeOf true true).begin).2.filing.lost) = (false, false) := by decide +kernel
  rw [he] at hsaved
  refine ⟨done, m', w', he, hiff.2 (.inr (.inr ⟨congrArg Prod.fst hsaved, congrArg Prod.snd hsaved, ?_⟩))⟩
  intro name a ha
  obtain ⟨h, hl, _⟩ := Option.map_eq_some_iff.1 ha
  obtain ⟨hne, hl⟩ := lookup_of_erase hl
  rcases lookup_of_insert hl with ⟨rfl, _⟩ | hl
  · exact absurd rfl hne
  · cases hl

/-- A host is gone from the map although its removal is not reported, and one that is reported as
added where what is written is lost is in no file. -/
theorem virtual_host_changes_are_not_atomic : ∃ m' w' m'' w'',
    FTPVirtualHostManager.sampleRemoval = (.ok (false, m'), w') ∧ m' ≠ Files.samplePlain ∧
    FTPVirtualHostManager.sampleAddition = (.ok (true, m''), w'') ∧
      ¬m''.Describes (w''.filing.content Files.samplePlain.virtual_hosts_file_) := by
  obtain ⟨⟨_, m'⟩, hr, he⟩ :=
    Option.map_eq_some_iff.1 (show FTPVirtualHostManager.sampleRemoval.1.toOption.map (fun r =>
    (r.1, (r.2.virtual_hosts_.getVirtualHost "a").isSome)) = some (false, false) by decide +kernel)
  obtain ⟨⟨_, m''⟩, hr', he'⟩ :=
    Option.map_eq_some_iff.1 (show FTPVirtualHostManager.sampleAddition.1.toOption.map (fun r =>
    (r.1, FTPVirtualHostManager.legible FTPVirtualHostManager.sampleAddition.2)) = some (true, false) by
      decide +kernel)
  simp only [Prod.mk.injEq] at he he'
  obtain ⟨rfl, hgone⟩ := he
  obtain ⟨rfl, hillegible⟩ := he'
  refine ⟨m', _, m'', _, Prod.ext (FTPVirtualHostManager.eq_ok_of_toOption hr) rfl, ?_,
    Prod.ext (FTPVirtualHostManager.eq_ok_of_toOption hr') rfl, fun h => ?_⟩
  · rintro rfl
    exact absurd hgone (by decide)
  · cases hillegible.symm.trans (FTPVirtualHostManager.legible_of_describes h)

end SimpleSftpd
