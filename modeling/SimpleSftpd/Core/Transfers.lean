import SimpleSftpd.Core.Uploads
import SimpleSftpd.Core.Downloads

namespace SimpleSftpd

open Cxx Interaction Prog Storage

def Arrival.on (a : Arrival) (fs : FileSystem) : Arrival := { a with world := a.world.withFs fs }

def Verb.keepsTree : Verb → Bool
  | .pass | .stor | .stou | .appe | .dele | .mkd | .rmd | .rnto => false
  | _ => true

namespace Session

variable {env : Service} {me : SessionId} {s s' : Session} {a : Arrival}

def KeepsTree (o : Σ β, Call β) : Prop := ∀ (g : Storage) (r : o.1), (g.next o.2 r).fs.nodes = g.fs.nodes

lemma keepsTree_of_kind {o : Σ β, Call β} (ho : o.2.kind ∉ [.change, .write, .chroot]) : KeepsTree o :=
  fun _ r => congrArg FileSystem.nodes (next_fs ho r)

lemma handleSITE_keepsTree (argument : Str) : (s.handleSITE argument).Within KeepsTree fun _ => True := by
  have hany {α : Type} {p : Io α} (h : p.Within (Kinds [.reply]) fun _ => True) :
      p.Within KeepsTree fun _ => True :=
    h.mono (fun o ho => keepsTree_of_kind (by simp [List.mem_singleton.1 ho])) fun _ => id
  have hreply (code : ℕ) (text : Str) : (s.reply code text).Within KeepsTree fun _ => True := hany (by simp)
  have hlines (rs : List Reply) : (s.sendLines rs).Within KeepsTree fun _ => True :=
    hany (sendLines_within (List.mem_singleton_self _) rs)
  unfold handleSITE siteChmod
  refine within_ite.2 ⟨fun _ => hlines _, fun _ => within_ite.2 ⟨fun _ => hreply _ _, fun _ => ?_⟩⟩
  refine within_ite.2 ⟨fun _ => within_ite.2 ⟨fun _ => hreply _ _, fun _ => ?_⟩, fun _ => hreply _ _⟩
  refine (within_call _ _).2 ⟨fun _ _ => rfl, fun fs => ?_⟩
  refine within_ite.2 ⟨fun _ => hreply _ _, fun _ => ?_⟩
  refine within_ite.2 ⟨fun _ => hreply _ _, fun _ => ?_⟩
  split
  · exact hreply _ _
  · refine (within_call _ _).2 ⟨fun g _ => g.fs.permissions_nodes _ _, fun failure => ?_⟩
    cases failure <;> exact hreply _ _

lemma handle_keepsTree (c : Command) (hv : c.verb.keepsTree = true) :
    (s.handle env c).Within KeepsTree fun _ => True := by
  by_cases hsite : c.verb = .site
  · obtain ⟨v, argument⟩ := c
    obtain rfl : v = .site := hsite
    exact (handleSITE_keepsTree argument).andReturn fun _ => trivial
  · refine (handle_within c).mono (fun o ho => keepsTree_of_kind ?_) fun _ _ => trivial
    revert ho
    cases hverb : c.verb <;> simp [hverb, Verb.keepsTree] at hv hsite <;>
      simp [Kinds, Verb.kinds, dataKinds, retrieveKinds, DataConnection.connectKinds] <;> grind

lemma storage_nodes (hv : a.command.verb.keepsTree = true) :
    (s.storage env me a).fs.nodes = a.world.fs.nodes := by
  have hdispatch : (s.dispatch env a.line).Within KeepsTree fun _ => True := by
    rcases dispatch_cases env s a.line with ⟨_, h⟩ | ⟨_, _, h⟩
    · rw [h]
      exact handle_keepsTree _ hv
    · rw [h]
      refine Within.mono (K := Kinds [.reply]) (P := fun _ => True) (by simp)
        (fun o ho => keepsTree_of_kind (by simp [List.mem_singleton.1 ho])) fun _ => id
  have hrun := Within.ends hdispatch (C := calls fun _ => True) (g := Storage.of a.world)
    (J := fun g => g.fs.nodes = a.world.fs.nodes) (fun o g ho hg => ⟨trivial, fun r _ => (ho g r).trans hg⟩) rfl
  exact (hrun.mono (fun _ _ h => h.2) fun _ => id).final (calls_describes _ me) (of_holds _)

lemma storage_handled {P : Session → Storage → Prop} (hs : s.socket_ ≠ none)
    (h : s.after env me a = some s') (hdone : (s.storage env me a).completed = true)
    (hP : Ends (calls fun _ => True) (s.handle env a.command) P (fun _ => True) (.of a.world)) :
    P s' (s.storage env me a) := by
  obtain ⟨w', he⟩ := exec_of_after h
  have hread {P' : Session → Storage → Prop}
      (hP' : Ends (calls fun _ => True) (s.dispatch env a.line) P' (fun _ => True) (.of a.world)) :
      P' s' (s.storage env me a) := by
    obtain ⟨_, hx⟩ := wp_final (calls_describes _ me) hP' (of_holds a.world)
    rw [he] at hx
    exact hx
  rcases dispatch_cases env s a.line with ⟨_, hd⟩ | ⟨_, _, hd⟩
  · refine hread ?_
    rw [hd]
    exact hP
  · have hrefused : Ends (calls fun _ => True) (s.dispatch env a.line) (fun _ g => g.completed = false)
      (fun _ => True)
        (.of a.world) := by
      rw [hd]
      exact ends_return hs (fun _ => trivial) rfl
    exact absurd ((hread hrefused).symm.trans hdone) (by decide)

lemma stor_deposit (hs : s.socket_ ≠ none) (hv : a.command.verb = .stor) (h : s.after env me a = some s')
    (hdone : (s.storage env me a).completed = true) :
    s.Deposit env a.world.fs (s.resolvePath a.world.fs a.command.argument) (s.storage env me a)
      ((s.storage env me a).completed = true) (s'.resume_position_ = 0) := by
  refine storage_handled (P := fun s' g => s.Deposit env a.world.fs (s.resolvePath a.world.fs a.command.argument) g
    (g.completed = true) (s'.resume_position_ = 0)) hs h hdone ?_
  rw [Arrival.command_eq hv]
  exact handleSTOR_storage (E := fun _ => True) hs (of_fresh _) _ (fun _ _ => trivial) fun _ _ _ => trivial

lemma appe_appends (hs : s.socket_ ≠ none) (hv : a.command.verb = .appe) (h : s.after env me a = some s')
    (hdone : (s.storage env me a).completed = true) :
    Appends a.world.fs (s.resolvePath a.world.fs a.command.argument) (s.storage env me a)
      ((s.storage env me a).completed = true) (s'.resume_position_ = 0) := by
  refine storage_handled (P := fun s' g => Appends a.world.fs (s.resolvePath a.world.fs a.command.argument) g
    (g.completed = true) (s'.resume_position_ = 0)) hs h hdone ?_
  rw [Arrival.command_eq hv]
  exact handleAPPE_storage (E := fun _ => True) hs (of_fresh _) _ (fun _ _ => trivial) fun _ _ => trivial

lemma retr_fetch (hs : s.socket_ ≠ none) (hv : a.command.verb = .retr) :
    s.Fetch env a.world.fs (s.resolvePath a.world.fs a.command.argument) ((s.storage env me a).completed = true)
      (s.storage env me a) := by
  have hdispatch : Ends (calls fun _ => True) (s.dispatch env a.line)
      (fun _ g => s.Fetch env a.world.fs (s.resolvePath a.world.fs a.command.argument) (g.completed = true) g)
      (fun g => s.Fetch env a.world.fs (s.resolvePath a.world.fs a.command.argument) (g.completed = true) g)
      (.of a.world) := by
    rcases dispatch_cases env s a.line with ⟨_, hd⟩ | ⟨_, _, hd⟩
    · have hhandle : s.handle env (.parse a.line) = s.handle env ⟨.retr, a.command.argument⟩ :=
        congrArg (s.handle env) (Arrival.command_eq hv)
      rw [hd, hhandle]
      exact (handleRETR_storage hs (of_fresh _) _).mono (fun _ _ h => h.2) fun _ => id
    · rw [hd]
      apply ends_return hs fun _ => trivial
      rw [replied_other (by decide)]
      exact .nothing (by simp [of]) rfl rfl rfl
  exact hdispatch.final (calls_describes _ me) (of_holds _)

lemma retr_used (hs : s.socket_ ≠ none) (hv : a.command.verb = .retr) (h : s.after env me a = some s')
    (hdone : (s.storage env me a).completed = true) : s'.resume_position_ = 0 := by
  refine storage_handled (P := fun s' g => g.completed = true → s'.resume_position_ = 0) hs h hdone ?_ hdone
  rw [Arrival.command_eq hv]
  exact (handleRETR_storage hs (of_fresh _) _).mono (fun _ _ h => h.1) fun _ _ => trivial

end Session

end SimpleSftpd
