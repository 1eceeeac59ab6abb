import SimpleSftpd.Core.Transfers
import SimpleSftpd.Sessions.Restarts

namespace SimpleSftpd

open Cxx Interaction Prog

variable (env : Service) (me : SessionId)

/-- A session, the tree that its commands alone change, and the pieces of a file it has stored;
`rested` after a restart at the end of the file. -/
structure Resuming where
  session : Session
  fs : FileSystem
  pieces : List Str
  rested : Bool

def resumeSystem : System Resuming Arrival where
  init v := (sessionSystem env me).Reach System.anyStep v.session ∧ v.session.resume_position_ = 0 ∧
    v.pieces = [] ∧ v.rested = false
  next v a :=
    let g := v.session.storage env me (a.on v.fs)
    (v.session.after env me (a.on v.fs)).map fun s' => match a.command.verb with
    | .stor | .appe => ⟨s', g.fs, v.pieces ++ [(g.peers.map fun peer => peer.chunks.flatten).flatten], false⟩
    | .rest => ⟨s', g.fs, v.pieces, true⟩
    | _ => ⟨s', g.fs, v.pieces, v.rested⟩

namespace Resuming

/-- The order of the commands: STOR of the first piece, which leaves a file at `l`; for each other
piece REST with the size of the file and STOR, or APPE, of a path that leads to `l`; and between
them commands that neither transfer nor change the tree. All is in stream mode, all writes succeed. -/
def Follows (l : Location) (v : Resuming) (a : Arrival) : Prop :=
  let g := v.session.storage env me (a.on v.fs)
  match a.command with
  | ⟨.stor, name⟩ => v.session.transferModeZ = false ∧ g.completed = true ∧ g.unwritten = false ∧
    if v.pieces = [] then g.fs.locate (v.session.resolvePath v.fs name) = .ok l ∧ g.fs.node l ≠ some .other
    else v.rested = true ∧ v.fs.locate (v.session.resolvePath v.fs name) = .ok l
  | ⟨.appe, name⟩ => v.pieces ≠ [] ∧ g.completed = true ∧ g.unwritten = false ∧
    v.fs.locate (v.session.resolvePath v.fs name) = .ok l
  | ⟨.rest, position⟩ => v.pieces ≠ [] ∧ stoull position = some (v.fs.content l).length ∧
    (v.session.trace env me (a.on v.fs)).answers 350 = true
  | ⟨v, _⟩ => v ≠ .retr ∧ v.keepsTree = true

def Reopens (l : Location) (v : Resuming) (a : Arrival) : Prop := match a.command.verb with
  | .rest => (v.fs.content l).length < 2 ^ 63
  | .stor => (v.session.storage env me (a.on v.fs)).unopened = false
  | _ => True

structure Sound (l : Location) (v : Resuming) : Prop where
  connected : v.session.socket_ ≠ none
  fresh : v.pieces = [] → v.session.resume_position_ = 0 ∧ v.rested = false
  file : v.pieces ≠ [] → v.fs.node l = some (.regular v.pieces.flatten)
  rested : v.rested = true → v.session.resume_position_ = v.pieces.flatten.length

end Resuming

variable {env me}

namespace Session

variable {s s' : Session} {a : Arrival} {l : Location} {b : Str}

lemma stored_first (hs : s.socket_ ≠ none) (hv : a.command.verb = .stor) (h : s.after env me a = some s')
    (hmode : s.transferModeZ = false) (hpos : s.resume_position_ = 0)
    (hdone : (s.storage env me a).completed = true) (hwritten : (s.storage env me a).unwritten = false)
    (hl : (s.storage env me a).fs.locate (s.resolvePath a.world.fs a.command.argument) = .ok l)
    (hfile : (s.storage env me a).fs.node l ≠ some .other) :
    (s.storage env me a).fs.node l =
      some (.regular (((s.storage env me a).peers.map fun p => p.chunks.flatten).flatten)) := by
  obtain ⟨peer, m, hpeers, _, hopen, hfs, hstored⟩ := (stor_deposit hs hv h hdone).replaced hdone hpos.le hwritten
  have hreceived : s.received env peer = peer.chunks.flatten := if_neg (by simp [hmode])
  have hpieces : ((s.storage env me a).peers.map fun p => p.chunks.flatten).flatten = peer.chunks.flatten := by
    simp [hpeers]
  have hshape : (((withParents a.world.fs (s.resolvePath a.world.fs a.command.argument)).openWrite
      (s.resolvePath a.world.fs a.command.argument) .truncate).2).SameShape _ :=
    FileSystem.put_sameShape m 0 (s.received env peer)
  obtain rfl : m = l := by
    rw [hfs, hshape.locate, FileSystem.openWrite_locate hopen] at hl
    exact Except.ok.inj hl
  rw [hpieces, ← hreceived]
  exact hstored hfile

lemma stored_next (hs : s.socket_ ≠ none) (hv : a.command.verb = .stor) (h : s.after env me a = some s')
    (hmode : s.transferModeZ = false) (hb : a.world.fs.node l = some (.regular b))
    (hpos : s.resume_position_ = b.length) (hdone : (s.storage env me a).completed = true)
    (hwritten : (s.storage env me a).unwritten = false) (hopened : (s.storage env me a).unopened = false)
    (hl : a.world.fs.locate (s.resolvePath a.world.fs a.command.argument) = .ok l) :
    (s.storage env me a).fs.node l =
      some (.regular (b ++ ((s.storage env me a).peers.map fun p => p.chunks.flatten).flatten)) := by
  obtain ⟨peer, m, mode, hpeers, _, hopen, hupdate, htruncate, hfs⟩ := (stor_deposit hs hv h hdone).done hdone
  have hreceived : s.received env peer = peer.chunks.flatten := if_neg (by simp [hmode])
  have hpieces : ((s.storage env me a).peers.map fun p => p.chunks.flatten).flatten = peer.chunks.flatten := by
    simp [hpeers]
  have hgrows : a.world.fs.Grows (withParents a.world.fs (s.resolvePath a.world.fs a.command.argument)) := by
    unfold withParents
    split
    · exact FileSystem.createDirectories_grows _
    · exact .refl
  have hl' := hgrows.locate hl
  have hb' := hgrows.node l _ hb
  obtain rfl : m = l := FileSystem.openWrite_at hopen hl'
  have hnode := FileSystem.openWrite_node hopen hb'
  have hstart : (if mode = .truncate then [] else b).length = s.startOf mode ∧
      (if mode = .truncate then [] else b) = b := by
    by_cases hempty : b = []
    · subst hempty
      have hzero : s.resume_position_ = 0 := hpos
      simp [startOf, hzero]
    · have hsome : 0 < s.resume_position_ := by
        have hlen := List.length_pos_of_ne_nil hempty
        omega
      have hu : mode = .update := by
        by_contra hu
        rcases (htruncate hu).2 hsome with hmissing | hrefused
        · exact FileSystem.status_of_regular hl' hb' hmissing
        · exact absurd (hopened.symm.trans hrefused) (by decide)
      subst hu
      simp [startOf, hpos]
  rw [hstart.2] at hnode hstart
  rw [hfs hwritten, ← hstart.1, FileSystem.node_put_end hnode, hpieces, hreceived]

lemma appended_next (hs : s.socket_ ≠ none) (hv : a.command.verb = .appe) (h : s.after env me a = some s')
    (hb : a.world.fs.node l = some (.regular b)) (hdone : (s.storage env me a).completed = true)
    (hwritten : (s.storage env me a).unwritten = false)
    (hl : a.world.fs.locate (s.resolvePath a.world.fs a.command.argument) = .ok l) :
    (s.storage env me a).fs.node l =
      some (.regular (b ++ ((s.storage env me a).peers.map fun p => p.chunks.flatten).flatten)) := by
  obtain ⟨peer, m, mode, hpeers, _, hopen, hmode, hfs⟩ := (appe_appends hs hv h hdone).done hdone
  have hpieces : ((s.storage env me a).peers.map fun p => p.chunks.flatten).flatten = peer.chunks.flatten := by
    simp [hpeers]
  obtain rfl : m = l := FileSystem.openWrite_at hopen hl
  have happend : mode = .append := by
    rcases hmode with hmode | ⟨_, hmissing⟩
    · exact hmode
    · exact absurd hmissing (FileSystem.status_of_regular hl hb)
  subst happend
  have hnode := FileSystem.openWrite_node hopen hb
  have hstart : appendStart a.world.fs m .append = b.length := by
    simp [appendStart, FileSystem.content_regular hb]
  rw [if_neg (by simp)] at hnode
  rw [hfs hwritten, hstart, FileSystem.node_put_end hnode, hpieces]

end Session

namespace Resuming

variable {v v' : Resuming} {a : Arrival} {l : Location}

lemma sound_init (h : (resumeSystem env me).init v) : v.Sound l := by
  obtain ⟨hreach, hpos, hpieces, hrested⟩ := h
  refine ⟨Session.connected_of_reach hreach, fun _ => ⟨hpos, hrested⟩, fun hne => absurd hpieces hne, fun h => ?_⟩
  exact absurd (hrested.symm.trans h) (by decide)

lemma sound_idle (hv : v.Sound l) {s' : Session} (hs' : v.session.after env me (a.on v.fs) = some s')
    (hkeeps : a.command.verb.keepsTree = true) (hposition : a.command.verb ∉ [.rest, .retr, .stor, .stou, .appe]) :
    Sound l ⟨s', (v.session.storage env me (a.on v.fs)).fs, v.pieces, v.rested⟩ := by
  have hframe := Session.after_frame hs'
  have hnode : (v.session.storage env me (a.on v.fs)).fs.node l = v.fs.node l :=
    FileSystem.node_congr (Session.storage_nodes (a := a.on v.fs) hkeeps)
  have hpos : s'.resume_position_ = v.session.resume_position_ := hframe.resume hposition
  refine ⟨hframe.socket ▸ hv.connected, fun h => ?_, fun h => ?_, fun h => ?_⟩
  · exact ⟨hpos.trans (hv.fresh h).1, (hv.fresh h).2⟩
  · exact hnode.trans (hv.file h)
  · exact hpos.trans (hv.rested h)

lemma sound_step (hv : v.Sound l) (hfollows : v.Follows env me l a) (hok : v.Reopens env me l a)
    (h : (resumeSystem env me).next v a = some v') : v'.Sound l := by
  obtain ⟨s', hs', rfl⟩ := Option.map_eq_some_iff.1 h
  have hconn : s'.socket_ ≠ none := (Session.after_frame hs').socket ▸ hv.connected
  have hstored (b : Str) (hb : (v.session.storage env me (a.on v.fs)).fs.node l = some (.regular b))
      (hall : b =
        (v.pieces ++ [((v.session.storage env me (a.on v.fs)).peers.map
        fun p => p.chunks.flatten).flatten]).flatten) :
      Sound l ⟨s', (v.session.storage env me (a.on v.fs)).fs,
        v.pieces ++ [((v.session.storage env me (a.on v.fs)).peers.map fun p => p.chunks.flatten).flatten],
          false⟩ :=
    ⟨hconn, fun hnil => absurd hnil (List.append_ne_nil_of_right_ne_nil _ (List.cons_ne_nil _ _)),
      fun _ => hall ▸ hb, fun h => by cases h⟩
  unfold Follows at hfollows
  unfold Reopens at hok
  by_cases hstor : a.command.verb = .stor
  · rw [Arrival.command_eq hstor] at hfollows
    simp only [hstor] at hok ⊢
    obtain ⟨hmode, hdone, hwritten, hfile⟩ := hfollows
    by_cases hpieces : v.pieces = []
    · rw [if_pos hpieces] at hfile
      apply hstored _ (Session.stored_first hv.connected hstor hs' hmode (hv.fresh hpieces).1 hdone hwritten
        hfile.1 hfile.2)
      simp [hpieces]
    · rw [if_neg hpieces] at hfile
      apply hstored _ (Session.stored_next hv.connected hstor hs' hmode (hv.file hpieces) (hv.rested hfile.1) hdone
        hwritten hok hfile.2)
      simp
  by_cases happe : a.command.verb = .appe
  · rw [Arrival.command_eq happe] at hfollows
    simp only [happe]
    obtain ⟨hpieces, hdone, hwritten, hl⟩ := hfollows
    apply hstored _ (Session.appended_next hv.connected happe hs' (hv.file hpieces) hdone hwritten hl)
    simp
  by_cases hrest : a.command.verb = .rest
  · rw [Arrival.command_eq hrest] at hfollows
    simp only [hrest] at hok ⊢
    obtain ⟨hpieces, hsize, hanswer⟩ := hfollows
    obtain ⟨code, hcode, hposition⟩ := Session.rest_answered hv.connected (a := a.on v.fs) hrest hs'
    have hnode : (v.session.storage env me (a.on v.fs)).fs.node l = v.fs.node l :=
      FileSystem.node_congr (Session.storage_nodes (a := a.on v.fs) ((congrArg Verb.keepsTree hrest).trans rfl))
    have hcontent : v.fs.content l = v.pieces.flatten := FileSystem.content_regular (hv.file hpieces)
    rw [hcode, decide_eq_true_eq] at hanswer
    rcases hposition with ⟨_, n, hn, hpos⟩ | ⟨hne, _⟩
    · obtain rfl : n = v.pieces.flatten.length := by
        have hsame : some n = some (v.fs.content l).length := hn.symm.trans hsize
        rw [← hcontent]
        exact Option.some.inj hsame
      rw [hcontent] at hok
      refine ⟨hconn, fun hnil => absurd hnil hpieces, fun _ => ?_, fun _ => ?_⟩
      · exact hnode.trans (hv.file hpieces)
      · exact hpos.trans (if_pos hok)
    · exact absurd hanswer hne
  · have hidle : a.command.verb ≠ .retr ∧ a.command.verb.keepsTree = true := by
      rcases hc : a.command with ⟨verb, argument⟩
      rw [hc] at hfollows hstor happe hrest
      cases verb <;>
        first | exact hfollows | exact absurd rfl hstor | exact absurd rfl happe | exact absurd rfl hrest
    have hidle' := sound_idle hv hs' hidle.2 (by
      have hstou : a.command.verb ≠ .stou := fun h => by simp [h, Verb.keepsTree] at hidle
      simp [hrest, hidle.1, hstor, hstou, happe])
    cases hverb : a.command.verb <;> dsimp only <;> first
      | exact hidle'
      | exact absurd hverb hstor
      | exact absurd hverb happe
      | exact absurd hverb hrest

lemma sound_of_reach (h : (resumeSystem env me).Reach (fun v a => v.Follows env me l a ∧ v.Reopens env me l a) v) :
    v.Sound l :=
  h.invariant (fun _ => sound_init) fun _ _ _ hv hok hn => sound_step hv hok.1 hok.2 hn

end Resuming

variable (env me)

structure Fetching where
  session : Session
  got : Str
  rested : Bool

/-- The client of a file `f` has a first part of it, if only an empty one. Of what RETR delivers it
keeps the first bytes, as many as it takes before it breaks off. -/
def fetchSystem (f : Str) : System Fetching (Arrival × ℕ) where
  init v := (sessionSystem env me).Reach System.anyStep v.session ∧ v.session.resume_position_ = 0 ∧
    v.got <+: f ∧ v.rested = false
  next v a := (v.session.after env me a.1).map fun s' => match a.1.command.verb with
    | .retr => ⟨s', v.got ++ (v.session.storage env me a.1).sent.take a.2, false⟩
    | .rest => ⟨s', v.got, true⟩
    | _ => ⟨s', v.got, v.rested⟩

/-- The order of the commands: RETR of a path that leads to the file `f`, in stream mode and with
nothing that falls short, from its start and then after REST with what the client has; and between
them commands that transfer nothing. -/
def Fetching.Follows (f : Str) (v : Fetching) (a : Arrival × ℕ) : Prop :=
  let g := v.session.storage env me a.1
  match a.1.command with
  | ⟨.retr, name⟩ => (v.got = [] ∨ v.rested = true) ∧ v.session.transferModeZ = false ∧ g.completed = true ∧
    g.unread = false ∧ g.unsent = false ∧
      ∃ l, a.1.world.fs.openRead (v.session.resolvePath a.1.world.fs name) = .ok l ∧
      a.1.world.fs.node l = some (.regular f)
  | ⟨.rest, position⟩ => stoull position = some v.got.length ∧ (v.session.trace env me a.1).answers 350 = true
  | ⟨v, _⟩ => v ∉ [.stor, .stou, .appe]

variable {env me}

namespace Fetching

variable {v v' : Fetching} {a : Arrival × ℕ} {f : Str}

structure Sound (f : Str) (v : Fetching) : Prop where
  connected : v.session.socket_ ≠ none
  fetched : v.got <+: f
  start : v.got = [] → v.session.resume_position_ = 0
  rested : v.rested = true → v.session.resume_position_ = v.got.length

lemma Sound.delivers (hv : v.Sound f) (hretr : a.1.command.verb = .retr) (hfollows : v.Follows env me f a) :
    (v.session.storage env me a.1).sent = f.drop v.got.length := by
  unfold Follows at hfollows
  rw [Arrival.command_eq hretr] at hfollows
  obtain ⟨hstart, hmode, hdone, hunread, hunsent, l, hl, hn⟩ := hfollows
  obtain ⟨m, b, hm, hb, hdelivers⟩ := (Session.retr_fetch hv.connected hretr).done hdone
  obtain rfl : m = l := Except.ok.inj (hm.symm.trans hl)
  obtain rfl : b = f := by simpa using hb.symm.trans hn
  have hpos : v.session.resume_position_ = v.got.length := by
    rcases hstart with hnil | hrested
    · rw [hnil, hv.start hnil]
      rfl
    · exact hv.rested hrested
  have hsent := hdelivers.whole hmode (by omega) hunread hunsent
  rw [hsent, hpos, Int.toNat_natCast]

lemma sound_step (hf : f.length < 2 ^ 63) (hv : v.Sound f) (hfollows : v.Follows env me f a)
    (h : (fetchSystem env me f).next v a = some v') : v'.Sound f := by
  obtain ⟨s', hs', rfl⟩ := Option.map_eq_some_iff.1 h
  have hconn : s'.socket_ ≠ none := (Session.after_frame hs').socket ▸ hv.connected
  by_cases hretr : a.1.command.verb = .retr
  · have hsent := hv.delivers hretr hfollows
    unfold Follows at hfollows
    rw [Arrival.command_eq hretr] at hfollows
    have hzero := Session.retr_used hv.connected hretr hs' hfollows.2.2.1
    simp only [hretr]
    refine ⟨hconn, ?_, fun _ => hzero, fun h => by cases h⟩
    obtain ⟨rest, rfl⟩ := hv.fetched
    rw [hsent, List.drop_left]
    exact (List.prefix_append_right_inj v.got).2 (List.take_prefix _ _)
  by_cases hrest : a.1.command.verb = .rest
  · unfold Follows at hfollows
    rw [Arrival.command_eq hrest] at hfollows
    obtain ⟨hsize, hanswer⟩ := hfollows
    obtain ⟨code, hcode, hposition⟩ := Session.rest_answered hv.connected hrest hs'
    rw [hcode, decide_eq_true_eq] at hanswer
    simp only [hrest]
    rcases hposition with ⟨_, n, hn, hpos⟩ | ⟨hne, _⟩
    · obtain rfl : n = v.got.length := Option.some.inj (hn.symm.trans hsize)
      have hlt : v.got.length < 2 ^ 63 := hv.fetched.length_le.trans_lt hf
      have hend : s'.resume_position_ = v.got.length := hpos.trans (if_pos hlt)
      exact ⟨hconn, hv.fetched, fun hnil => by rw [hend, hnil]; rfl, fun _ => hend⟩
    · exact absurd hanswer hne
  · have hother : a.1.command.verb ∉ [.stor, .stou, .appe] := by
      unfold Follows at hfollows
      rcases hc : a.1.command with ⟨verb, argument⟩
      rw [hc] at hfollows hretr hrest
      cases verb <;> first | exact hfollows | exact absurd rfl hretr | exact absurd rfl hrest
    have hpos : s'.resume_position_ = v.session.resume_position_ :=
      (Session.after_frame hs').resume (by simpa [hretr, hrest] using hother)
    have hsound : Sound f ⟨s', v.got, v.rested⟩ := 
      ⟨hconn, hv.fetched, fun h => hpos.trans (hv.start h), fun h => hpos.trans (hv.rested h)⟩
    cases hverb : a.1.command.verb <;> dsimp only <;> first
      | exact hsound
      | exact absurd hverb hretr
      | exact absurd hverb hrest

lemma sound_of_reach (hf : f.length < 2 ^ 63)
    (h : (fetchSystem env me f).Reach (fun v a => v.Follows env me f a) v) :
    v.Sound f := by
  refine h.invariant ?_ fun _ _ _ hv hok hn => sound_step hf hv hok hn
  rintro v ⟨hreach, hpos, hgot, hrested⟩
  refine ⟨Session.connected_of_reach hreach, hgot, fun _ => hpos, fun h => ?_⟩
  exact absurd (hrested.symm.trans h) (by decide)

end Fetching

variable (env me)

theorem pieces_make_the_file (l : Location) (f : Str) (hf : f.length < 2 ^ 63) :
    (∀ v, (resumeSystem env me).Reach (fun v a => v.Follows env me l a ∧ v.Reopens env me l a) v → v.pieces ≠ [] →
      v.fs.content l = v.pieces.flatten) ∧
    ∀ v, (fetchSystem env me f).Reach (fun v a => v.Follows env me f a) v → v.got <+: f ∧
      ∀ a, a.1.command.verb = .retr → v.Follows env me f a → ∀ s', v.session.after env me a.1 = some s' →
        (v.session.storage env me a.1).sent = f.drop v.got.length := by
  refine ⟨fun v hv hpieces => ?_, fun v hv => ?_⟩
  · exact FileSystem.content_regular ((Resuming.sound_of_reach hv).file hpieces)
  · have hsound := Fetching.sound_of_reach hf hv
    exact ⟨hsound.fetched, fun a hretr hfollows _ _ => hsound.delivers hretr hfollows⟩

namespace Resuming

instance (l : Location) (v : Resuming) (a : Arrival) : Decidable (v.Follows env me l a) := by
  rw [Follows]
  generalize a.command = c
  rcases c with ⟨verb, argument⟩
  cases verb <;> dsimp only <;> infer_instance

instance (l : Location) (v : Resuming) (a : Arrival) : Decidable (v.Reopens env me l a) := by
  unfold Reopens
  split <;> infer_instance

def pieceLine (line : String) (piece : Str) (refused : Bool) : Arrival where
  world := .start ⟨[], [], fun _ _ _ => none, []⟩ fun _ c => match c with
    | .accept _ => some (0, if h : piece = [] then .silent else ⟨[piece], true, by simp [h]⟩)
    | .openWrite _ .update => if refused then none else some 0
    | c => c.favourable
  line := ascii line

def pieceLines (refused : Bool) : List Arrival :=
  [pieceLine "STOR f" "ab" false, pieceLine "REST 2" [] false, pieceLine "STOR f" "c" refused,
    pieceLine "APPE f" "d" false]

def samplePieces : List Str := [ascii "ab", ascii "c", ascii "d"]

def loginLines : List Arrival := ["USER u", "PASS p", "PASV"].map fun line => pieceLine line [] false

end Resuming

theorem pieces_make_the_file_stor :
    ∃ v : Resuming, v.pieces = Resuming.samplePieces ∧ v.fs.content ["f"] = ascii "abcd" := by
  obtain ⟨s, hs, he⟩ := Option.map_eq_some_iff.1 (show
    ((sessionSystem Attested.sampleService 0).run System.anyStep
      (.opened 3 false false) Resuming.loginLines).map (fun s =>
      (decide (s.resume_position_ = 0), ((resumeSystem Attested.sampleService 0).run
        (fun v a => v.Follows Attested.sampleService 0 ["f"] a ∧ v.Reopens Attested.sampleService 0 ["f"] a)
        ⟨s, ⟨[], [], fun _ _ _ => none, []⟩, [], false⟩ (Resuming.pieceLines false)).map fun (v : Resuming) =>
          decide (v.pieces = Resuming.samplePieces))) = some (true, some true) by decide +kernel)
  simp only [Prod.mk.injEq, decide_eq_true_eq] at he
  obtain ⟨v, hv, hpieces⟩ := Option.map_eq_some_iff.1 he.2
  have hpieces' : v.pieces = Resuming.samplePieces := of_decide_eq_true hpieces
  refine ⟨v, hpieces', ?_⟩
  rw [(pieces_make_the_file Attested.sampleService 0 ["f"] [] (by decide)).1 v
    (.run (.init ⟨.run (.init ⟨_, _, _, rfl⟩) hs, he.1, rfl, rfl⟩) hv) (by rw [hpieces']; decide), hpieces']
  decide

theorem pieces_do_not_make_the_file : ∃ v : Resuming,
    (resumeSystem Attested.sampleService 0).Reach (fun v a => v.Follows Attested.sampleService 0 ["f"] a) v ∧
      v.pieces = Resuming.samplePieces ∧ v.fs.content ["f"] = ascii "cd" := by
  obtain ⟨s, hs, he⟩ := Option.map_eq_some_iff.1 (show
    ((sessionSystem Attested.sampleService 0).run System.anyStep
      (.opened 3 false false) Resuming.loginLines).map (fun s =>
      (decide (s.resume_position_ = 0), ((resumeSystem Attested.sampleService 0).run
        (fun v a => v.Follows Attested.sampleService 0 ["f"] a)
        ⟨s, ⟨[], [], fun _ _ _ => none, []⟩, [], false⟩ (Resuming.pieceLines true)).map fun (v : Resuming) =>
          decide (v.pieces = Resuming.samplePieces ∧ v.fs.content ["f"] = ascii "cd"))) = some (true,
            some true) by decide +kernel)
  simp only [Prod.mk.injEq, decide_eq_true_eq] at he
  obtain ⟨v, hv, hfile⟩ := Option.map_eq_some_iff.1 he.2
  exact ⟨v, .run (.init ⟨.run (.init ⟨_, _, _, rfl⟩) hs, he.1, rfl, rfl⟩) hv, of_decide_eq_true hfile⟩

end SimpleSftpd
