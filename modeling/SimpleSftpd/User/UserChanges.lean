import SimpleSftpd.Interaction.System
import SimpleSftpd.User.UserManager

namespace SimpleSftpd

open Cxx Interaction Prog

/-- Files by name; `arrives` says whether all that is written at a time gets to its file. `refused` and
`lost` remember a save that could not make its directories or open its file, and a last write that has
not arrived. -/
structure Filing where
  content : Str → StoredFile
  refused : Bool
  lost : Bool
  time : ℕ
  arrives : ℕ → Bool

namespace Filing

def answered (w : Filing) {β : Type} (o : StoreCall β) : β → Filing := match o with
  | .createDirectories _ => fun failure => { w with refused := w.refused || failure.isSome }
  | .truncate file => fun opened =>
    if opened then { w with content := Function.update w.content file .unparsable } else { w with refused := true }
  | .write file root => fun _ =>
    { w with
      content := Function.update w.content file (if w.arrives w.time then .json root else .unparsable)
      lost := !w.arrives w.time }
  | _ => fun _ => w

def next (w : Filing) {β : Type} (o : StoreCall β) (r : β) : Filing := { w.answered o r with time := w.time + 1 }

def begin (w : Filing) : Filing := { w with refused := false, lost := false }

end Filing

structure Store where
  filing : Filing
  choose : ∀ {β : Type}, ℕ → StoreCall β → β

namespace Store

def reply (w : Store) {β : Type} : StoreCall β → β
  | .read file => w.filing.content file
  | o => w.choose w.filing.time o

abbrev machine : Machine StoreCall Store :=
  fun _ w o => (w.reply o, { w with filing := w.filing.next o (w.reply o) })

def begin (w : Store) : Store := { w with filing := w.filing.begin }

end Store

def saving : Contract StoreCall Filing where
  pre _ _ := True
  post w o := match o with
    | .read file => fun found => found = w.content file
    | _ => fun _ => True
  next w o r := w.next o r

lemma saving_describes : saving.Describes Store.machine fun g w => w.filing = g := by
  rintro β g w o rfl _
  cases o with
  | read file => exact ⟨rfl, rfl⟩
  | _ => exact ⟨trivial, rfl⟩

section

variable {w : Filing}

lemma directories_saving (file : Str) : Ends saving (if Path.hasParentPath file then
      request (.createDirectories (Path.parentPath file)) else pure none : Storing (Option Errc))
    (fun failure w' => w'.content = w.content ∧ w'.refused = (w.refused || failure.isSome))
      (fun _ => False) w := by
  apply ends_ite
  · intro _
    exact ends_perform trivial fun _ _ => ⟨rfl, rfl⟩
  · intro _
    exact ends_pure ⟨rfl, by simp⟩

def Filing.Saves (w w' : Filing) (file : Str) (document : Int → Json) : Bool → Prop
  | false => w'.refused = true ∧ w'.content = w.content
  | true => w'.refused = w.refused ∧ ∃ updated,
      w'.content = Function.update w.content file (if w'.lost then .unparsable else .json (document updated))

lemma document_saving (file : Str) (document : Int → Json) : Ends saving (do
      let updated : Int ← request .systemNow
      let opened : Bool ← request (.truncate file)
      if !opened then return false
      else do
        request (.write file (document updated))
        return true : Storing Bool) (fun b w' => w.Saves w' file document b) (fun _ => False) w := by
  apply ends_bind
  apply ends_perform trivial
  intro updated _
  apply ends_bind
  apply ends_perform trivial
  intro opened _
  cases opened with
  | false => exact ends_pure ⟨rfl, rfl⟩
  | true =>
    apply ends_bind
    apply ends_perform trivial
    intro _ _
    refine ends_pure ⟨rfl, updated, ?_⟩
    simp only [saving, Filing.next, Filing.answered, if_true, Function.update_idem]
    cases w.arrives (w.time + 1 + 1) <;> rfl

end

namespace FTPUserManager

variable {m : FTPUserManager} {w : Filing}

lemma saveUsers_saving (hfile : m.user_file_ ≠ []) : Ends saving (m.saveUsers [])
    (fun b w' => w.Saves w' m.user_file_ m.toJson b) (fun w' => w.Saves w' m.user_file_ m.toJson false) w := by
  apply ends_ite
  · intro h
    exact absurd h hfile
  intro _
  apply ends_bind
  apply (directories_saving _).mono ?_ fun _ => False.elim
  rintro failure w' ⟨hcontent, hrefused⟩
  cases failure with
  | some e => exact ends_throw ⟨by simpa using hrefused, hcontent⟩
  | none =>
    have hsame : w'.refused = w.refused := by simpa using hrefused
    apply (document_saving _ _).mono ?_ fun _ => False.elim
    intro b w'' h
    cases b with
    | false => exact ⟨h.1, h.2.trans hcontent⟩
    | true => exact ⟨h.1.trans hsame, hcontent ▸ h.2⟩

def Describes (m : FTPUserManager) (f : StoredFile) : Prop :=
  ∃ root, f = .json root ∧ ∀ u, u ∈ storedUsers f ↔ m.getUser u.username_ = some u

lemma Sound.describes (hm : m.Sound) (updated : Int) : m.Describes (.json (m.toJson updated)) := by
  refine ⟨_, rfl, fun u => ?_⟩
  rw [hm.storedUsers_toJson, List.mem_map]
  constructor
  · rintro ⟨e, he, rfl⟩
    have hlookup := AList.mem_lookup_iff.2 he
    have hname := (hm e.1 e.2 hlookup).1
    rwa [hname]
  · intro hu
    exact ⟨⟨u.username_, u⟩, AList.mem_lookup_iff.1 hu, rfl⟩

lemma describes_iff_saved {w' : Filing} {b : Bool} (hm : m.Sound) (hw : w.refused = false)
    (h : w.Saves w' m.user_file_ m.toJson b) : m.Describes (w'.content m.user_file_) ↔
      w'.refused = false ∧ w'.lost = false ∨ w'.refused = true ∧ m.Describes (w.content m.user_file_) := by
  cases b with
  | false =>
    obtain ⟨hrefused, hcontent⟩ := h
    rw [hrefused, hcontent]
    simp
  | true =>
    obtain ⟨hrefused, updated, hcontent⟩ := h
    rw [hrefused, hw, hcontent, Function.update_self]
    cases hlost : w'.lost with
    | false => simpa using hm.describes updated
    | true => simp [Describes]

end FTPUserManager

/-- A call of addUser with a record in the ranges of its C++ types, or of removeUser. -/
inductive UserChange
  | add (user : FTPUser) (inRange : user.InRange)
  | remove (username : Str)

namespace UserChange

def run (m : FTPUserManager) : UserChange → Storing (Bool × FTPUserManager)
  | add user _ => do
    let m ← m.addUser user
    return (true, m)
  | remove username => m.removeUser username

def made (m : FTPUserManager) : UserChange → FTPUserManager
  | add user _ => { m with users_ := m.users_.insert user.username_ user }
  | remove username => { m with users_ := m.users_.erase username }

variable {m : FTPUserManager} {c : UserChange} {w : Filing}

lemma made_sound (hm : m.Sound) : (c.made m).Sound := by
  cases c with
  | add user hu => exact hm.insert rfl hu
  | remove username => exact hm.erase username

lemma made_file : (c.made m).user_file_ = m.user_file_ := by
  cases c <;> rfl

lemma run_saving (hfile : m.user_file_ ≠ []) : Ends saving (c.run m) (fun r w' =>
      r.1 = true ∧ r.2 = c.made m ∧ (∃ b, w.Saves w' m.user_file_ (c.made m).toJson b) ∨ r = (false, m))
    (fun _ => True) w := by
  have hsave : Ends saving (if (c.made m).user_file_ ≠ [] then (c.made m).saveUsers [] else
    pure true : Storing Bool)
      (fun _ w' => ∃ b, w.Saves w' m.user_file_ (c.made m).toJson b) (fun _ => True) w := by
    apply ends_ite
    · intro hne
      rw [← made_file (c := c)]
      exact (FTPUserManager.saveUsers_saving hne).mono (fun b _ h => ⟨b, h⟩) fun _ _ => trivial
    · intro h
      exact absurd (made_file.symm ▸ hfile) h
  cases c with
  | add user hu =>
    apply ends_bind
    apply ends_bind
    apply hsave.mono ?_ fun _ => id
    intro _ w' h
    exact ends_pure (ends_pure (.inl ⟨rfl, rfl, h⟩))
  | remove username =>
    apply ends_ite
    · intro _
      apply ends_bind
      apply hsave.mono ?_ fun _ => id
      intro _ w' h
      exact ends_pure (.inl ⟨rfl, rfl, h⟩)
    · intro _
      exact ends_pure (.inr rfl)

end UserChange

structure Managing where
  manager : FTPUserManager
  store : Store
  reported : Bool

def managingSystem : System Managing UserChange where
  init v := v.manager.Sound ∧ v.manager.user_file_ ≠ [] ∧ v.reported = false
  next v c := match (c.run v.manager).exec Store.machine v.store.begin with
    | (.ok (reported, m), w) => some ⟨m, w, reported⟩
    | (.error _, w) => some ⟨c.made v.manager, w, false⟩

namespace Managing

variable {v v' : Managing} {c : UserChange}

lemma next_cases (hfile : v.manager.user_file_ ≠ []) (h : managingSystem.next v c = some v') :
    (v'.manager = c.made v.manager ∧ (v'.reported = true →
        ∃ b, v.store.begin.filing.Saves v'.store.filing v.manager.user_file_ (c.made v.manager).toJson b)) ∨
      v'.manager = v.manager ∧ v'.reported = false := by
  have hrun := (UserChange.run_saving (c := c) (w := v.store.begin.filing) hfile).exec saving_describes rfl
  unfold managingSystem at h
  rcases hrun with ⟨⟨reported, m⟩, w, _, he, rfl, hsaved⟩ | ⟨e, w, _, he, rfl, _⟩
  · simp only [he, Option.some.injEq] at h
    subst h
    rcases hsaved with ⟨_, hmade, hsaves⟩ | hnone
    · exact .inl ⟨hmade, fun _ => hsaves⟩
    · exact .inr ⟨congrArg Prod.snd hnone, congrArg Prod.fst hnone⟩
  · simp only [he, Option.some.injEq] at h
    subst h
    exact .inl ⟨rfl, fun h => by cases h⟩

lemma sound_of_reach (h : managingSystem.Reach System.anyStep v) :
    v.manager.Sound ∧ v.manager.user_file_ ≠ [] := by
  apply h.invariant (P := fun v => v.manager.Sound ∧ v.manager.user_file_ ≠ [])
  · rintro v ⟨hsound, hfile, _⟩
    exact ⟨hsound, hfile⟩
  · rintro v c v' ⟨hsound, hfile⟩ _ hn
    rcases next_cases hfile hn with ⟨hmade, _⟩ | ⟨hsame, _⟩
    · rw [hmade]
      exact ⟨UserChange.made_sound hsound, UserChange.made_file.symm ▸ hfile⟩
    · rw [hsame]
      exact ⟨hsound, hfile⟩

end Managing

/-- After a call that reports success the file describes the map exactly if the save has done its work,
or has done nothing where there was nothing to do. -/
theorem reported_user_changes_are_saved {v v' : Managing} {c : UserChange}
    (h : managingSystem.Reach System.anyStep v)
    (hn : managingSystem.next v c = some v') (hreported : v'.reported = true) :
    v'.manager.Describes (v'.store.filing.content v'.manager.user_file_) ↔ v'.store.filing.refused = false ∧
      v'.store.filing.lost = false ∨
      v'.store.filing.refused = true ∧ v'.manager.Describes (v.store.filing.content v.manager.user_file_) := by
  obtain ⟨hsound, hfile⟩ := Managing.sound_of_reach h
  rcases Managing.next_cases hfile hn with ⟨hmade, hsaves⟩ | ⟨_, hno⟩
  · rw [hmade, UserChange.made_file]
    obtain ⟨b, hsaved⟩ := hsaves hreported
    rw [← UserChange.made_file (c := c)] at hsaved ⊢
    exact FTPUserManager.describes_iff_saved (w := v.store.begin.filing) (UserChange.made_sound hsound) rfl hsaved
  · cases hreported.symm.trans hno

namespace Managing

def sample (opens keeps : Bool) : Managing where
  manager := ⟨∅, "u"⟩
  store := ⟨⟨fun _ => .missing, false, false, 0, fun _ => keeps⟩, fun _ c => match c with
    | .truncate _ => opens
    | c => c.favourable⟩
  reported := false

def sampleChange : UserChange := .add ⟨"u", "p", "/", [], [], false, 0, 0⟩ ⟨by decide, by decide⟩

def legible (v : Managing) : Bool := match v.store.filing.content v.manager.user_file_ with
  | .json _ => true
  | _ => false

lemma legible_of_describes {v : Managing}
    (h : v.manager.Describes (v.store.filing.content v.manager.user_file_)) : v.legible = true := by
  obtain ⟨root, hroot, _⟩ := h
  rw [legible, hroot]

lemma sample_init (opens keeps : Bool) : managingSystem.init (sample opens keeps) :=
  ⟨fun k u h => (by cases h), List.cons_ne_nil _ _, rfl⟩

end Managing

theorem reported_user_changes_are_saved_add :
    ∃ v, managingSystem.next (Managing.sample true true) Managing.sampleChange = some v ∧
    v.reported = true ∧ v.manager.Describes (v.store.filing.content v.manager.user_file_) := by
  obtain ⟨v, hv, he⟩ := Option.map_eq_some_iff.1 (show
    (managingSystem.next (Managing.sample true true) Managing.sampleChange).map (fun v =>
      decide (v.reported = true ∧ v.store.filing.refused = false ∧ v.store.filing.lost = false)) =
        some true by decide +kernel)
  obtain ⟨hreported, hsaved⟩ := of_decide_eq_true he
  exact ⟨v, hv, hreported,
    (reported_user_changes_are_saved (.init (Managing.sample_init true true)) hv hreported).2 (.inl hsaved)⟩

theorem reported_user_changes_are_not_saved : ∃ v v',
    managingSystem.next (Managing.sample false true) Managing.sampleChange = some v ∧ v.reported = true ∧
      ¬v.manager.Describes (v.store.filing.content v.manager.user_file_) ∧
    managingSystem.next (Managing.sample true false) Managing.sampleChange = some v' ∧ v'.reported = true ∧
      ¬v'.manager.Describes (v'.store.filing.content v'.manager.user_file_) := by
  obtain ⟨v, hv, he⟩ := Option.map_eq_some_iff.1 (show
    (managingSystem.next (Managing.sample false true) Managing.sampleChange).map
      (fun v => (v.reported, v.legible)) =
      some (true, false) by decide +kernel)
  obtain ⟨v', hv', he'⟩ := Option.map_eq_some_iff.1 (show
    (managingSystem.next (Managing.sample true false) Managing.sampleChange).map
      (fun v => (v.reported, v.legible)) =
      some (true, false) by decide +kernel)
  simp only [Prod.mk.injEq] at he he'
  refine ⟨v, v', hv, he.1, fun h => ?_, hv', he'.1, fun h => ?_⟩
  · cases he.2.symm.trans (Managing.legible_of_describes h)
  · cases he'.2.symm.trans (Managing.legible_of_describes h)

end SimpleSftpd
