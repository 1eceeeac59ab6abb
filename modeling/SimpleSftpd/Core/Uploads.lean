import SimpleSftpd.Cxx.Contents
import SimpleSftpd.Core.Storage
import SimpleSftpd.Core.Ledger

namespace SimpleSftpd

open Cxx Interaction Prog Storage

def Zlib.plain (zlib : Zlib) (orderly : Bool) (made : List (Str × Bool)) : List Str → Str
  | [] => if orderly then (zlib.inflated (made ++ [([], true)])).getD [] else []
  | chunk :: chunks => match zlib.inflated (made ++ [(chunk, false)]) with
    | some out => out ++ plain zlib orderly (made ++ [(chunk, false)]) chunks
    | none => []

lemma Zlib.plain_of_stream {zlib : Zlib} {chunks : List Str} {made : List (Str × Bool)} {data : Str}
    (h : Zlib.stream zlib.inflated made chunks = some data) : zlib.plain true made chunks = data := by
  induction chunks generalizing made data with
  | nil =>
    have hend : zlib.inflated (made ++ [([], true)]) = some data := h
    simp [plain, hend]
  | cons chunk chunks ih =>
    obtain ⟨out, hout, hrest⟩ := Option.bind_eq_some_iff.1 h
    obtain ⟨rest, hchunks, rfl⟩ := Option.map_eq_some_iff.1 hrest
    unfold plain
    rw [hout]
    exact congrArg (out ++ ·) (ih hchunks)

namespace Storage

variable {g g₁ g' : Storage} {l : Location} {pos : ℕ} {data rest : Str} {good : Bool}

def Storing (g g' : Storage) (l : Location) (pos : ℕ) (data : Str) (good : Bool) : Prop :=
  ∃ out lost, out <+: data ∧ (good = false → out = []) ∧
    g' = { g with fs := g.fs.put l pos out, unwritten := g.unwritten || lost }

structure Stores (g g' : Storage) (l : Location) (pos : ℕ) (data : Str) (good : Bool) : Prop where
  storing : g.Storing g' l pos data good
  whole : good = true → g'.unwritten = false → g'.fs = g.fs.put l pos data

lemma Storing.refl (g : Storage) (l : Location) (pos : ℕ) (data : Str) (good : Bool) :
    g.Storing g l pos data good :=
  ⟨[], false, List.nil_prefix, fun _ => rfl, by simp⟩

lemma Stores.nil (g : Storage) (l : Location) (pos : ℕ) (good : Bool) : g.Stores g l pos [] good :=
  ⟨.refl g l pos [] good, fun _ _ => by simp⟩

lemma Storing.written (h : Storing { g with fs := g.fs.put l pos data } g' l (pos + data.length) rest true) :
    g.Storing g' l pos (data ++ rest) true := by
  obtain ⟨out, lost, hout, _, rfl⟩ := h
  refine ⟨data ++ out, lost, (List.prefix_append_right_inj data).2 hout, fun h => (by cases h), ?_⟩
  rw [FileSystem.put_put]

lemma Storing.lost (h : Storing { g with unwritten := true } g' l pos rest false) (data : Str) (start : ℕ) :
    g.Storing g' l start data true := by
  obtain ⟨out, lost, _, hout, rfl⟩ := h
  obtain rfl := hout rfl
  exact ⟨[], true, List.nil_prefix, fun _ => rfl, by simp⟩

lemma Storing.idle (h : Storing g g' l pos data false) (start : ℕ) (rest : Str) :
    Storing g g' l start rest false := by
  obtain ⟨out, lost, _, hout, rfl⟩ := h
  obtain rfl := hout rfl
  exact ⟨[], lost, List.nil_prefix, fun _ => rfl, by simp⟩

lemma Stores.written (h : Stores { g with fs := g.fs.put l pos data } g' l (pos + data.length) rest true) :
    g.Stores g' l pos (data ++ rest) true := by
  refine ⟨h.storing.written, fun _ hw => ?_⟩
  rw [h.whole rfl hw, FileSystem.put_put]

lemma Stores.lost (h : Stores { g with unwritten := true } g' l pos rest false) (data : Str) (start : ℕ) :
    g.Stores g' l start data true := by
  refine ⟨h.storing.lost data start, fun _ hw => ?_⟩
  obtain ⟨out, lost, _, _, rfl⟩ := h.storing
  cases hw

lemma Stores.idle (h : Stores g g' l pos data false) (start : ℕ) (rest : Str) : Stores g g' l start rest false :=
  ⟨h.storing.idle start rest, fun hgood => by cases hgood⟩

end Storage

namespace Session

structure Wrote (g g₁ : Storage) (l : Location) (data : Str) (f f' : OutFile) : Prop where
  fd : f'.fd = f.fd
  files : g₁.files = g.files
  storing : ∀ rest g', g₁.Storing g' l f'.pos rest f'.good → g.Storing g' l f.pos (data ++ rest) f.good
  stores : ∀ rest g', g₁.Stores g' l f'.pos rest f'.good → g.Stores g' l f.pos (data ++ rest) f.good

variable {J : Storage → Prop} {E : Storage → Prop} {g : Storage} {l : Location} {p : Int}
    {env : Service} {s : Session}

lemma write_stores {f : OutFile} {data : Str} (hfile : g.files f.fd = some (l, p)) (hdata : data ≠ []) (hJ : J g) :
    Ends (calls J) (f.write data) (fun f' g₁ => Wrote g g₁ l data f f') E g := by
  unfold OutFile.write
  cases hgood : f.good with
  | false =>
    refine ends_pure ⟨rfl, rfl, fun rest g' h => ?_, fun rest g' h => ?_⟩
    · rw [hgood] at h ⊢
      exact h.idle _ _
    · rw [hgood] at h ⊢
      exact h.idle _ _
  | true =>
    refine ends_call hJ fun ok _ => ends_pure ?_
    cases ok with
    | true =>
      simp only [next, hfile, ← FileSystem.put_of_ne hdata]
      refine ⟨rfl, rfl, fun rest g' h => ?_, fun rest g' h => ?_⟩
      · rw [hgood]
        exact h.written
      · rw [hgood]
        exact h.written
    | false =>
      refine ⟨rfl, rfl, fun rest g' h => ?_, fun rest g' h => ?_⟩
      · rw [hgood]
        exact h.lost _ _
      · rw [hgood]
        exact h.lost _ _

lemma receiveLoop_stores (rate : Int) (start : ℕ) (fd : Fd) (peer : Peer) (chunks : List Str) :
    (∀ chunk ∈ chunks, chunk ≠ []) → ∀ (n : ℕ) (f : OutFile) (g : Storage), g.files f.fd = some (l, p) →
      (∀ g', g.Storing g' l f.pos chunks.flatten f.good → J g') →
      Ends (calls J) (receiveLoop rate start fd peer chunks n f)
        (fun _ g' => g.Stores g' l f.pos chunks.flatten f.good) E g := by
  induction chunks with
  | nil =>
    intro _ n f g _ hJ
    exact ends_call (hJ g (.refl ..)) fun _ _ => ends_pure (.nil ..)
  | cons chunk chunks ih =>
    intro hchunks n f g hfile hJ
    have hchunk : chunk ≠ [] := hchunks chunk List.mem_cons_self
    have hrest (c : Str) (hc : c ∈ chunks) : c ≠ [] := hchunks c (List.mem_cons_of_mem _ hc)
    have hnow : J g := hJ g (.refl ..)
    have hwrite := write_stores (J := J) (E := E) (f := f) hfile hchunk hnow
    apply ends_call hnow
    intro _ _
    apply ends_throttle hnow
    apply ends_bind
    apply hwrite.mono ?_ fun _ => id
    intro f' g₁ h
    have hfile' : g₁.files f'.fd = some (l, p) := by rw [h.files, h.fd, hfile]
    have hloop := ih hrest (n + chunk.length) f' g₁ hfile' fun g' hg' => hJ g' (h.storing _ g' hg')
    exact hloop.mono (fun _ g' hg' => h.stores _ g' hg') fun _ => id

lemma writeAny_stores {f : OutFile} (plain : Str) (hfile : g.files f.fd = some (l, p)) (hJ : J g) :
    Ends (calls J) (if plain = [] then return f else f.write plain : Io OutFile)
      (fun f' g₁ => Wrote g g₁ l plain f f') E g := by
  split
  · rename_i hnil
    rw [hnil]
    exact ends_pure ⟨rfl, rfl, fun _ _ h => h, fun _ _ h => h⟩
  · rename_i hsome
    exact write_stores hfile hsome hJ

lemma inflate_ends {zlib : Zlib} {made : List (Str × Bool)} {α : Type} {k : Option Str → Io α}
    {P : α → Storage → Prop}
    (hE : zlib.inflated made = none → E g) (h : Ends (calls J) (k (zlib.inflated made)) P E g) :
    Ends (calls J) (inflate zlib made >>= k) P E g := by
  unfold inflate
  unfold Zlib.inflated at h hE
  cases hz : zlib.inflate made with
  | ok output =>
    rw [hz] at h
    exact h
  | failed =>
    rw [hz] at h
    exact h
  | hangs =>
    rw [hz] at hE
    exact hE rfl

/-- The loop of MODE Z has succeeded with all that its stream makes of the chunks, or there is none
or the connection broke. -/
structure Inflates (zlib : Zlib) (peer : Peer) (g g' : Storage) (l : Location) (made : List (Str × Bool))
    (chunks : List Str) (f : OutFile) (ok : Bool) : Prop where
  storing : g.Storing g' l f.pos (zlib.plain peer.orderly made chunks) f.good
  done : ok = true → g.Stores g' l f.pos (zlib.plain peer.orderly made chunks) f.good
  failed : ok = false → peer.orderly = false ∨ Zlib.stream zlib.inflated made chunks = none

lemma inflateLoop_stores (zlib : Zlib) (rate : Int) (start : ℕ) (fd : Fd) (peer : Peer) (chunks : List Str) :
    ∀ (made : List (Str × Bool)) (n : ℕ) (f : OutFile) (g : Storage), g.files f.fd = some (l, p) →
      (∀ g', g.Storing g' l f.pos (zlib.plain peer.orderly made chunks) f.good → J g') →
      (Zlib.stream zlib.inflated made chunks = none →
        ∀ g', g.Storing g' l f.pos (zlib.plain peer.orderly made chunks) f.good → E g') →
      Ends (calls J) (inflateLoop zlib rate start fd peer chunks made n f)
        (fun ok g' => Inflates zlib peer g g' l made chunks f ok) E g := by
  induction chunks with
  | nil =>
    intro made n f g hfile hJ hE
    have hnow : J g := hJ g (.refl ..)
    apply ends_call hnow
    intro _ _
    split
    · rename_i hbroken
      exact ends_pure ⟨.refl .., fun h => (by cases h), fun _ => .inl (by simpa using hbroken)⟩
    · rename_i horderly
      have horderly' : peer.orderly = true := by simpa using horderly
      apply inflate_ends
      · exact fun hnone => hE hnone g (.refl ..)
      cases hz : zlib.inflated (made ++ [([], true)]) with
      | none => exact ends_pure ⟨.refl .., fun h => (by cases h), fun _ => .inr hz⟩
      | some plain =>
        have hplain : zlib.plain peer.orderly made [] = plain := by simp [Zlib.plain, hz, horderly']
        apply ends_bind
        apply (writeAny_stores plain hfile hnow).mono ?_ fun _ => id
        intro f' g₁ h
        have hall : g.Stores g₁ l f.pos (zlib.plain peer.orderly made []) f.good := by
          rw [hplain, ← List.append_nil plain]
          exact h.stores _ _ (.nil ..)
        exact ends_pure ⟨hall.storing, fun _ => hall, fun h => by cases h⟩
  | cons chunk chunks ih =>
    intro made n f g hfile hJ hE
    have hnow : J g := hJ g (.refl ..)
    apply ends_call hnow
    intro _ _
    apply inflate_ends
    · intro hnone
      exact hE (by simp [Zlib.stream, hnone]) g (.refl ..)
    cases hz : zlib.inflated (made ++ [(chunk, false)]) with
    | none =>
      refine ends_pure ⟨.refl .., fun h => (by cases h), fun _ => ?_⟩
      exact .inr (by simp [Zlib.stream, hz])
    | some plain =>
      have hplain : zlib.plain peer.orderly made (chunk :: chunks) =
          plain ++ zlib.plain peer.orderly (made ++ [(chunk, false)]) chunks := by
        conv_lhs => unfold Zlib.plain
        rw [hz]
      have hstream (h : Zlib.stream zlib.inflated (made ++ [(chunk, false)]) chunks = none) :
          Zlib.stream zlib.inflated made (chunk :: chunks) = none := by
        simp [Zlib.stream, hz, h]
      rw [hplain] at hJ hE
      apply ends_bind
      apply (writeAny_stores plain hfile hnow).mono ?_ fun _ => id
      intro f' g₁ h
      have hfile' : g₁.files f'.fd = some (l, p) := by rw [h.files, h.fd, hfile]
      have hloop := ih (made ++ [(chunk, false)]) (n + plain.length) f' g₁ hfile'
        (fun g' hg' => hJ g' (h.storing _ g' hg')) fun hnone g' hg' => hE (hstream hnone) g' (h.storing _ g' hg')
      apply ends_throttle (hJ g₁ (h.storing _ _ (.refl ..)))
      apply hloop.mono ?_ fun _ => id
      intro ok g' hg'
      refine ⟨?_, fun hok => ?_, fun hno => ?_⟩
      · rw [hplain]
        exact h.storing _ g' hg'.storing
      · rw [hplain]
        exact h.stores _ g' (hg'.done hok)
      · exact (hg'.failed hno).imp_right hstream

lemma appendLoop_stores (data_fd fd : Fd) (peer : Peer) (chunks : List Str) :
    (∀ chunk ∈ chunks, chunk ≠ []) → ∀ (good : Bool) (pos : ℕ) (g : Storage), g.files fd = some (l, p) →
      (∀ b, g.fs.node l = some (.regular b) → pos = b.length) →
      (∀ g', g.Storing g' l pos chunks.flatten good → J g') →
      Ends (calls J) (appendLoop data_fd fd peer chunks good)
        (fun _ g' => g.Stores g' l pos chunks.flatten good) E g := by
  induction chunks with
  | nil =>
    intro _ good pos g _ _ hJ
    exact ends_perform (hJ g (.refl ..)) fun _ _ => .nil ..
  | cons chunk chunks ih =>
    intro hchunks good pos g hfile hpos hJ
    have hchunk : chunk ≠ [] := hchunks chunk List.mem_cons_self
    have hrest (c : Str) (hc : c ∈ chunks) : c ≠ [] := hchunks c (List.mem_cons_of_mem _ hc)
    have hnow : J g := hJ g (.refl ..)
    apply ends_call hnow
    intro _ _
    cases good with
    | false =>
      have hloop := ih hrest false pos g hfile hpos fun g' hg' => hJ g' (hg'.idle _ _)
      exact hloop.mono (fun _ g' hg' => hg'.idle _ _) fun _ => id
    | true =>
      apply ends_bind
      apply ends_perform hnow
      intro ok _
      cases ok with
      | true =>
        have hnext : g.next (.appendTo fd chunk) true = { g with fs := g.fs.put l pos chunk } := by
          simp only [next, hfile, FileSystem.append_eq_put hpos hchunk]
        change Ends _ _ _ _ (g.next (.appendTo fd chunk) true)
        rw [hnext]
        have hloop := ih hrest true (pos + chunk.length) { g with fs := g.fs.put l pos chunk } hfile
          (FileSystem.put_end hpos) fun g' hg' => hJ g' hg'.written
        exact hloop.mono (fun _ g' hg' => hg'.written) fun _ => id
      | false =>
        have hloop := ih hrest false pos { g with unwritten := true } hfile hpos fun g' hg' => hJ g' (hg'.lost _ _)
        exact hloop.mono (fun _ g' hg' => hg'.lost _ _) fun _ => id

structure Opens (s : Session) (path : Str) (g g' : Storage) (f : OutFile) (l : Location)
    (mode : FileSystem.OpenMode) : Prop where
  good : f.good = true
  pos : f.pos = if mode = .update then s.resume_position_.toNat else 0
  location : (g.fs.openWrite path mode).1 = .ok l
  file : g'.files f.fd = some (l, 0)
  storage : ∃ files unopened, g' = { g with
    fs := (g.fs.openWrite path mode).2, files := files, targets := g.targets ++ [(l, mode)], unopened := unopened }
  update : mode = .update → 0 < s.resume_position_
  truncate : mode ≠ .update → mode = .truncate ∧ (0 < s.resume_position_ →
    g.fs.status path = .ok .notFound ∨ g'.unopened = true)

lemma openTarget_storage (path : Str) (hJ : ∀ unopened, J { g with unopened := unopened })
    (hE : E g) {P : Option OutFile → Storage → Prop}
    (hnone : ∀ unopened, P none { g with fs := (g.fs.openWrite path .truncate).2, unopened := unopened })
    (h : ∀ f g' l mode, s.Opens path g g' f l mode → P (some f) g') :
    Ends (calls J) (s.openTarget path) P E g := by
  have hnow : J g := hJ g.unopened
  have hopen (denied : Bool) (hwhy : 0 < s.resume_position_ → g.fs.status path = .ok .notFound ∨ denied = true) :
      Ends (calls J) (do
        let chosen : Option Fd ← perform (.openWrite path .truncate)
        return chosen.map fun fd => ⟨fd, 0, true⟩ : Io (Option OutFile)) P E
        { g with unopened := g.unopened || denied } := by
    apply ends_call (hJ _)
    intro chosen hchosen
    apply ends_pure
    cases chosen with
    | none =>
      simp only [next, refused]
      exact hnone _
    | some fd =>
      obtain ⟨_, l, hl⟩ := hchosen fd rfl
      rw [next_opened hl]
      refine h ⟨fd, 0, true⟩ _ l .truncate ⟨rfl, rfl, hl, ?_, ⟨_, _, rfl⟩, fun hno => (by cases hno),
        fun _ => ⟨rfl, fun hpos => ?_⟩⟩
      · exact Function.update_self ..
      · exact (hwhy hpos).imp_right fun hr => by simp [hr]
  unfold openTarget
  by_cases hpos : 0 < s.resume_position_
  · rw [if_pos hpos]
    apply ends_bind
    apply ends_call hnow
    intro found hfound
    obtain rfl : found = g.fs.status path := hfound
    apply ends_orThrow ?_ fun _ _ => hE
    intro t ht
    split
    · apply ends_perform hnow
      intro chosen hchosen
      cases chosen with
      | none =>
        have hrefused : g.next (.openWrite path .update) none = { g with unopened := g.unopened || true } := by
          simp only [next, refused, FileSystem.openWrite_update, decide_true]
        change Ends _ _ _ _ (g.next (.openWrite path .update) none)
        rw [hrefused]
        exact hopen true fun _ => .inr rfl
      | some fd =>
        obtain ⟨_, l, hl⟩ := hchosen fd rfl
        change Ends _ _ _ _ (g.next (.openWrite path .update) (some fd))
        rw [next_opened hl]
        apply ends_pure
        refine h ⟨fd, s.resume_position_.toNat, true⟩ _ l .update ⟨rfl, rfl, hl, ?_, ⟨_, _, rfl⟩,
          fun _ => hpos, fun hno => ?_⟩
        · exact Function.update_self ..
        · exact absurd rfl hno
    · rename_i hmissing
      apply ends_pure
      have hnew := hopen false fun _ => .inl (by rw [ht, not_not.1 hmissing])
      simpa using hnew
  · rw [if_neg hpos]
    have hnew := hopen false fun h => absurd h hpos
    apply ends_bind
    apply ends_pure
    simpa using hnew

structure Receiving (fs : FileSystem) (peer : Peer) (l : Location) (mode : FileSystem.OpenMode)
    (pos : ℕ) (data : Str)
    (g : Storage) : Prop where
  peers : g.peers = [peer]
  targets : g.targets = [(l, mode)]
  tree : ∃ out, out <+: data ∧ g.fs = fs.put l pos out

lemma Receiving.storing {peer : Peer} {mode : FileSystem.OpenMode} {pos : ℕ} {data : Str} {g' : Storage}
    (hpeers : g.peers = [peer]) (htargets : g.targets = [(l, mode)]) (h : g.Storing g' l pos data true) :
    Receiving g.fs peer l mode pos data g' := by
  obtain ⟨out, lost, hout, _, rfl⟩ := h
  exact ⟨hpeers, htargets, out, hout, rfl⟩

def received (env : Service) (s : Session) (peer : Peer) : Str :=
  if s.transferModeZ then env.zlib.plain peer.orderly [] peer.chunks else peer.chunks.flatten

def Readable (env : Service) (s : Session) (g : Storage) : Prop :=
  g.targets ≠ [] ∧ (s.transferModeZ = true → g.prepared = true ∧
    ∀ peer ∈ g.peers, peer.orderly = true ∧ (Zlib.stream env.zlib.inflated [] peer.chunks).isSome)

structure ReceiveRun (env : Service) (s : Session) (g : Storage) (peer : Peer) (l : Location)
    (mode : FileSystem.OpenMode) (pos : ℕ) (g' : Storage) (code : ℕ) (used : Bool) : Prop where
  receiving : Receiving g.fs peer l mode pos (s.received env peer) g'
  completed : g'.completed = false
  unopened : g'.unopened = g.unopened
  whole : code = 226 → g'.unwritten = false → g'.fs = g.fs.put l pos (s.received env peer)
  used : code = 226 → used = true
  answered : s.Readable env g' → code = 226

lemma receiveTo_storage {peer : Peer} {mode : FileSystem.OpenMode} {f : OutFile} (data_fd : Fd)
    (hfile : g.files f.fd = some (l, p)) (hgood : f.good = true) (hpeers : g.peers = [peer])
    (htargets : g.targets = [(l, mode)]) (hprepared : g.prepared = false) (hcompleted : g.completed = false)
    (hJ : ∀ g', Receiving g.fs peer l mode f.pos (s.received env peer) g' → J g')
    (hE : ∀ g', Receiving g.fs peer l mode f.pos (s.received env peer) g' → ¬s.Readable env g' → E g') :
    Ends (calls J) (s.receiveTo env data_fd peer f)
      (fun r g' => s.ReceiveRun env g peer l mode f.pos g' r.1 r.2.2) E g := by
  have hclose {r : ℕ × Str × Bool} {g' : Storage} (h : s.ReceiveRun env g peer l mode f.pos g' r.1 r.2.2) :
      Ends (calls J) (do perform (.close f.fd); perform (.close data_fd); return r : Io _)
        (fun r g' => s.ReceiveRun env g peer l mode f.pos g' r.1 r.2.2) E g' := by
    have hany (files : Fd → Option (Location × Int)) :
        s.ReceiveRun env g peer l mode f.pos { g' with files := files } r.1 r.2.2 :=
      ⟨⟨h.receiving.peers, h.receiving.targets, h.receiving.tree⟩, h.completed, h.unopened, h.whole,
        h.used, h.answered⟩
    apply ends_call (hJ g' h.receiving)
    intro _ _
    apply ends_call (hJ _ (hany _).receiving)
    intro _ _
    exact ends_pure (hany _)
  have hstart (prepared : Bool) :
      Receiving g.fs peer l mode f.pos (s.received env peer) { g with prepared := prepared } :=
    ⟨hpeers, htargets, [], List.nil_prefix, rfl⟩
  apply ends_call (hJ g (hstart g.prepared))
  intro start_time _
  dsimp only
  split
  · rename_i hz
    have hreceived : s.received env peer = env.zlib.plain peer.orderly [] peer.chunks := if_pos hz
    apply ends_call (hJ g (hstart g.prepared))
    intro valid _
    cases valid with
    | false =>
      refine hclose ⟨hstart _, hcompleted, rfl, fun h => absurd h (by decide),
        fun h => absurd h (by decide), fun h => ?_⟩
      have hready := (h.2 hz).1
      simp [next, hprepared] at hready
    | true =>
      have hstoring (g' : Storage) (h : Storing { g with prepared := g.prepared || true } g' l f.pos
          (env.zlib.plain peer.orderly [] peer.chunks) f.good) :
          Receiving g.fs peer l mode f.pos (s.received env peer) g' := by
        rw [hgood] at h
        rw [hreceived]
        exact Receiving.storing (g := { g with prepared := g.prepared || true }) hpeers htargets h
      have hloop :=
        inflateLoop_stores (J := J) (E := E) env.zlib env.config_.rate_limit.max_transfer_rate start_time
        data_fd peer peer.chunks [] 0 f { g with prepared := g.prepared || true } hfile
        (fun g' h => hJ g' (hstoring g' h)) fun hnone g' h => hE g' (hstoring g' h) fun hready => by
          have hsome := ((hready.2 hz).2 peer (by simp [(hstoring g' h).peers])).2
          simp [hnone] at hsome
      apply ends_bind
      apply hloop.mono ?_ fun _ => id
      intro ok g' h
      have hkept : g'.completed = false ∧ g'.unopened = g.unopened := by
        obtain ⟨out, lost, _, _, rfl⟩ := h.storing
        exact ⟨hcompleted, rfl⟩
      apply hclose
      cases ok with
      | true =>
        refine ⟨hstoring g' h.storing, hkept.1, hkept.2, fun _ hw => ?_, fun _ => rfl, fun _ => rfl⟩
        rw [hreceived]
        exact (h.done rfl).whole hgood hw
      | false =>
        refine ⟨hstoring g' h.storing, hkept.1, hkept.2, fun h => absurd h (by decide),
          fun h => absurd h (by decide), fun hready => ?_⟩
        obtain ⟨horderly, hsome⟩ := (hready.2 hz).2 peer (by simp [(hstoring g' h.storing).peers])
        rcases h.failed rfl with hbroken | hnone
        · exact absurd (horderly.symm.trans hbroken) (by decide)
        · simp [hnone] at hsome
  · rename_i hz
    have hreceived : s.received env peer = peer.chunks.flatten := if_neg hz
    have hstoring (g' : Storage) (h : g.Storing g' l f.pos peer.chunks.flatten f.good) :
        Receiving g.fs peer l mode f.pos (s.received env peer) g' := by
      rw [hgood] at h
      rw [hreceived]
      exact Receiving.storing hpeers htargets h
    have hloop :=
      receiveLoop_stores (J := J) (E := E) env.config_.rate_limit.max_transfer_rate start_time data_fd peer
      peer.chunks peer.nonempty 0 f g hfile fun g' h => hJ g' (hstoring g' h)
    apply ends_bind
    apply hloop.mono ?_ fun _ => id
    intro _ g' h
    have hkept : g'.completed = false ∧ g'.unopened = g.unopened := by
      obtain ⟨out, lost, _, _, rfl⟩ := h.storing
      exact ⟨hcompleted, rfl⟩
    apply hclose
    refine ⟨hstoring g' h.storing, hkept.1, hkept.2, fun _ hw => ?_, fun _ => rfl, fun _ => rfl⟩
    rw [hreceived]
    exact h.whole hgood hw

/-- The trees a transfer to a file goes through: as it is found, with the parents made, with the
file open, and with part of what the peer has sent. -/
inductive Course (fs fs₁ : FileSystem) (path : Str) (modes : FileSystem.OpenMode → Prop)
    (start : Location → FileSystem.OpenMode → ℕ) (bytes : Peer → Str) (g : Storage) : Prop
  | before (h : g.fs = fs)
  | parents (h : g.fs = fs₁)
  | refused (mode : FileSystem.OpenMode) (h : g.fs = (fs₁.openWrite path mode).2)
  | receiving (peer : Peer) (l : Location) (mode : FileSystem.OpenMode) (hmode : modes mode)
      (hopen : (fs₁.openWrite path mode).1 = .ok l)
      (h : Receiving (fs₁.openWrite path mode).2 peer l mode (start l mode) (bytes peer) g)

lemma Course.congr {fs fs₁ : FileSystem} {path : Str} {modes : FileSystem.OpenMode → Prop}
    {start : Location → FileSystem.OpenMode → ℕ} {bytes : Peer → Str} {g' : Storage}
    (h : Course fs fs₁ path modes start bytes g) (hfs : g'.fs = g.fs) (hpeers : g'.peers = g.peers)
    (htargets : g'.targets = g.targets) : Course fs fs₁ path modes start bytes g' := by
  cases h with
  | before h => exact .before (hfs.trans h)
  | parents h => exact .parents (hfs.trans h)
  | refused mode h => exact .refused mode (hfs.trans h)
  | receiving peer l mode hmode hopen h =>
    exact .receiving peer l mode hmode hopen ⟨hpeers.trans h.peers, htargets.trans h.targets, hfs ▸ h.tree⟩

def startOf (s : Session) (mode : FileSystem.OpenMode) : ℕ :=
  if mode = .update then s.resume_position_.toNat else 0

def HasRoom (s : Session) (fs : FileSystem) : Prop := ∀ u, s.current_user_ = some u → 0 < s.storageQuota →
  directorySize (fs.regularFilesBelow u.home_directory_) < s.storageQuota

def StoreMode (s : Session) (mode : FileSystem.OpenMode) : Prop :=
  mode = .truncate ∨ mode = .update ∧ 0 < s.resume_position_

def StoreCourse (env : Service) (s : Session) (fs : FileSystem) (path : Str) (g : Storage) : Prop :=
  g.fs = fs ∨ s.HasRoom fs ∧ Course fs (withParents fs path) path s.StoreMode (fun _ => s.startOf)
    (s.received env) g

lemma StoreCourse.congr {fs : FileSystem} {path : Str} {g' : Storage} (h : s.StoreCourse env fs path g)
    (hfs : g'.fs = g.fs) (hpeers : g'.peers = g.peers) (htargets : g'.targets = g.targets) :
    s.StoreCourse env fs path g' :=
  h.imp hfs.trans fun h => ⟨h.1, h.2.congr hfs hpeers htargets⟩

structure Deposit (env : Service) (s : Session) (fs : FileSystem) (path : Str) (g : Storage)
    (success consumed : Prop) : Prop where
  course : s.StoreCourse env fs path g
  done : success → ∃ peer l mode, g.peers = [peer] ∧ g.targets = [(l, mode)] ∧
    ((withParents fs path).openWrite path mode).1 = .ok l ∧
    (mode = .update → 0 < s.resume_position_) ∧ (mode ≠ .update → mode = .truncate ∧ (0 < s.resume_position_ →
      (withParents fs path).status path = .ok .notFound ∨ g.unopened = true)) ∧
    (g.unwritten = false → g.fs = ((withParents fs path).openWrite path mode).2.put l (s.startOf mode)
      (s.received env peer))
  used : success → consumed
  answered : s.Readable env g → success

lemma Deposit.replaced {fs : FileSystem} {path : Str} {success consumed : Prop}
    (h : s.Deposit env fs path g success consumed)
    (hdone : success) (hpos : s.resume_position_ ≤ 0) (hwritten : g.unwritten = false) :
    ∃ peer l, g.peers = [peer] ∧
      g.targets = [(l, .truncate)] ∧ ((withParents fs path).openWrite path .truncate).1 = .ok l ∧
      g.fs = ((withParents fs path).openWrite path .truncate).2.put l 0 (s.received env peer) ∧
      (g.fs.node l ≠ some .other → g.fs.node l = some (.regular (s.received env peer))) := by
  obtain ⟨peer, l, mode, hpeers, htargets, hopen, hupdate, htruncate, hfs⟩ := h.done hdone
  have hmode : mode = .truncate := by
    by_contra hne
    by_cases hu : mode = .update
    · exact absurd (hupdate hu) (not_lt.2 hpos)
    · exact hne (htruncate hu).1
  subst hmode
  have hfs' : g.fs = ((withParents fs path).openWrite path .truncate).2.put l 0 (s.received env peer) :=
    hfs hwritten
  refine ⟨peer, l, hpeers, htargets, hopen, hfs', fun hfile => ?_⟩
  have hnew : ((withParents fs path).openWrite path .truncate).2.node l = some (.regular []) := by
    apply FileSystem.openWrite_truncated hopen
    intro hother
    obtain ⟨_, ⟨hnone, _⟩ | ⟨b, hb, _⟩ | ⟨_, he⟩⟩ := FileSystem.openWrite_cases hopen
    · simp [hother] at hnone
    · simp [hother] at hb
    · rw [hfs', he, FileSystem.put_other (by simp [hother])] at hfile
      exact hfile hother
  have hput := FileSystem.node_put_end hnew (s.received env peer)
  rw [hfs']
  exact hput

lemma storeFrom_storage {peer : Peer} {path : Str} (hroom : s.HasRoom g.fs) (data_fd : Fd)
    (hpeers : g.peers = [peer]) (htargets : g.targets = [])
    (hprepared : g.prepared = false) (hcompleted : g.completed = false)
    (hJ : ∀ g', s.StoreCourse env g.fs path g' → J g')
    (hE : ∀ g', s.StoreCourse env g.fs path g' → ¬s.Readable env g' → E g') :
    Ends (calls J) (s.storeFrom env data_fd peer path)
      (fun r g' => g'.completed = false ∧ s.Deposit env g.fs path g' (r.1 = 226) (r.2.2 = true)) E g := by
  have hopen (g₁ : Storage) (hfs : g₁.fs = withParents g.fs path) (hpeers : g₁.peers = [peer])
      (htargets : g₁.targets = []) (hprepared : g₁.prepared = false) (hcompleted : g₁.completed = false)
      {next : Option OutFile → Io (ℕ × Str × Bool)} (hnone : next none = do
        perform (.close data_fd)
        return (550, "Failed to create file", false)) (hsome : ∀ f,
          next (some f) = s.receiveTo env data_fd peer f) :
      Ends (calls J) (s.openTarget path >>= next) (fun r g' => g'.completed = false ∧
        s.Deposit env g.fs path g' (r.1 = 226) (r.2.2 = true)) E g₁ := by
    have hclosed (g' : Storage) (h : g'.targets = []) : ¬s.Readable env g' := fun hready => hready.1 h
    apply ends_bind
    refine openTarget_storage path (fun _ => hJ _ (.inr ⟨hroom, .parents hfs⟩))
      (hE g₁ (.inr ⟨hroom, .parents hfs⟩) (hclosed g₁ htargets)) ?_ ?_
    · intro unopened
      have hcourse : s.StoreCourse env g.fs path
          { g₁ with fs := (g₁.fs.openWrite path .truncate).2, unopened := unopened } := by
        refine .inr ⟨hroom, .refused .truncate ?_⟩
        rw [hfs]
      rw [hnone]
      apply ends_call (hJ _ hcourse)
      intro _ _
      refine ends_pure ⟨hcompleted, ?_, fun h => absurd h (by decide), fun h => absurd h (by decide),
        fun h => absurd h (hclosed _ htargets)⟩
      refine .inr ⟨hroom, .refused .truncate ?_⟩
      rw [← hfs]
      rfl
    · rintro f g₂ l mode ⟨hgood, hpos, hlocation, hfile, ⟨files, unopened, rfl⟩, hupdate, htruncate⟩
      rw [hfs] at hlocation htruncate
      have hcourse (g' : Storage) (h : Receiving (g₁.fs.openWrite path mode).2 peer l mode f.pos
        (s.received env peer) g') :
          s.StoreCourse env g.fs path g' := by
        rw [hfs, hpos] at h
        have hmode : s.StoreMode mode := by
          by_cases hu : mode = .update
          · exact .inr ⟨hu, hupdate hu⟩
          · exact .inl (htruncate hu).1
        exact .inr ⟨hroom, .receiving peer l mode hmode hlocation h⟩
      have hrun := receiveTo_storage (J := J) (E := E) (s := s) (g := { g₁ with
          fs := (g₁.fs.openWrite path mode).2, files := files, targets := g₁.targets ++ [(l, mode)],
            unopened := unopened })
        data_fd hfile hgood hpeers (by simp [htargets]) hprepared hcompleted
        (fun g' h => hJ g' (hcourse g' h)) fun g' h hno => hE g' (hcourse g' h) hno
      rw [hsome]
      apply hrun.mono ?_ fun _ => id
      intro r g' h
      refine ⟨h.completed, hcourse g' h.receiving, fun hcode => ?_, h.used, h.answered⟩
      refine ⟨peer, l, mode, h.receiving.peers, h.receiving.targets, hlocation, hupdate, ?_, fun hw => ?_⟩
      · exact fun hmode => (htruncate hmode).imp_right fun hwhy hpos => by rw [h.unopened]; exact hwhy hpos
      · have hwhole := h.whole hcode hw
        rw [hfs, hpos] at hwhole
        exact hwhole
  have hidle (g' : Storage) (h : g'.targets = []) : ¬s.Readable env g' := fun hready => hready.1 h
  unfold storeFrom
  by_cases hparents : Path.hasParentPath path = true
  · have hfs : (g.fs.createDirectories (Path.parentPath path)).2 = withParents g.fs path := (if_pos hparents).symm
    rw [if_pos hparents]
    apply ends_bind
    apply ends_call (hJ g (.inl rfl))
    intro made _
    apply ends_orThrow
    · intro _ _
      apply ends_pure
      exact hopen (g.next (.createDirectories (Path.parentPath path)) made) hfs hpeers htargets hprepared
        hcompleted rfl fun _ => rfl
    · exact fun _ _ => hE _ (.inr ⟨hroom, .parents hfs⟩) (hidle _ htargets)
  · have hfs : g.fs = withParents g.fs path := (if_neg hparents).symm
    rw [if_neg hparents]
    apply ends_bind
    exact ends_pure (hopen g hfs hpeers htargets hprepared hcompleted rfl fun _ => rfl)

lemma quotaExceeded_storage (hJ : J g) :
    Ends (calls J) s.quotaExceeded (fun exceeded g' => g' = g ∧ (exceeded = false → s.HasRoom g.fs)) E g := by
  unfold quotaExceeded
  split
  · rename_i u hu
    split
    · apply ends_call hJ
      intro sizes hsizes
      obtain rfl : sizes = g.fs.regularFilesBelow u.home_directory_ := hsizes
      refine ends_pure ⟨rfl, fun hfree u' hu' _ => ?_⟩
      obtain rfl : u = u' := Option.some.inj (hu.symm.trans hu')
      simpa using hfree
    · rename_i hquota
      exact ends_pure ⟨rfl, fun _ u' _ hpos => absurd hpos hquota⟩
  · rename_i hu
    exact ends_pure ⟨rfl, fun _ u' hu' => absurd (hu.symm.trans hu') (Option.some_ne_none _).symm⟩

lemma handleSTOR_storage (hs : s.socket_ ≠ none) (hg : Fresh g) (name : Str)
    (hJ : ∀ g', s.StoreCourse env g.fs (s.resolvePath g.fs name) g' → J g') (hE : ∀ g',
      s.StoreCourse env g.fs (s.resolvePath g.fs name) g' → ¬s.Readable env g' → E g') :
    Ends (calls J) (s.handleSTOR env name) (fun s' g' => s.Deposit env g.fs (s.resolvePath g.fs name) g'
      (g'.completed = true) (s'.resume_position_ = 0)) E g := by
  have hidle (g' : Storage) (h : g'.targets = []) : ¬s.Readable env g' := fun hready => hready.1 h
  have hdeposit {g' : Storage} {s' : Session} (hfs : g'.fs = g.fs) (htargets : g'.targets = [])
      (hcompleted : g'.completed = false) : s.Deposit env g.fs (s.resolvePath g.fs name) g' (g'.completed = true)
        (s'.resume_position_ = 0) :=
    ⟨.inl hfs, fun h => absurd (hcompleted.symm.trans h) (by decide),
      fun h => absurd (hcompleted.symm.trans h) (by decide), fun h => absurd h (hidle _ htargets)⟩
  have hnow (done : Bool) : J { g with completed := done } := hJ _ (.inl rfl)
  have hrefuse {code : ℕ} {text : Str} (s' : Session) (hcode : code ≠ 226) :
      Ends (calls J) (s.reply code text >>= fun _ => pure s')
        (fun s' g' => s.Deposit env g.fs (s.resolvePath g.fs name) g'
        (g'.completed = true) (s'.resume_position_ = 0)) E g := by
    apply ends_return hs hnow
    rw [replied_other hcode]
    exact hdeposit rfl hg.targets hg.completed
  apply ends_call (hJ g (.inl rfl))
  intro fs hfs
  obtain rfl : fs = g.fs := hfs
  refine ends_ite (fun _ => hrefuse s (by decide)) fun _ => ?_
  refine ends_ite (fun _ => hrefuse s (by decide)) fun _ => ?_
  apply ends_bind
  apply (quotaExceeded_storage (hJ g (.inl rfl))).mono ?_ fun _ => id
  rintro exceeded g' ⟨hsame, hroom⟩
  rw [hsame]
  refine ends_ite (fun _ => hrefuse s (by decide)) fun hfree => ?_
  have hroom' : s.HasRoom g.fs := hroom (by simpa using hfree)
  apply ends_bind
  apply modeZRefusal_storage hs hnow
  · exact fun s' => ends_pure (hdeposit rfl hg.targets hg.completed)
  intro _
  apply ends_reply_bind hs hnow
  rw [replied_other (by decide)]
  apply ends_accept
  · exact fun files peers => hJ _ (.inl rfl)
  intro accepted d files
  rcases accepted with _ | ⟨data_fd, peer⟩
  · refine ends_return (s := { s with data := d }) (g := { g with files := files, peers := g.peers ++ [] }) hs
      (fun _ => hJ _ (.inl rfl)) ?_
    rw [replied_other (by decide)]
    exact hdeposit rfl hg.targets hg.completed
  · have hone : g.peers ++ [peer] = [peer] := by rw [hg.peers, List.nil_append]
    have hstore := storeFrom_storage (J := J) (E := E) (s := { s with data := d })
      (g := { g with files := files, peers := g.peers ++ [peer] }) hroom' data_fd hone hg.targets hg.prepared
        hg.completed hJ hE
    apply ends_bind
    apply hstore.mono ?_ fun _ => id
    intro r g' h
    obtain ⟨hcompleted, h⟩ := h
    refine ends_return (s := { s with data := d }) hs (fun _ => hJ _ (h.course.congr rfl rfl rfl)) ?_
    have hsuccess : (g'.replied r.1).completed = true ↔ r.1 = 226 := by simp [replied, hcompleted]
    refine ⟨h.course.congr rfl rfl rfl, fun hdone => h.done (hsuccess.1 hdone), fun hdone => ?_,
      fun hready => hsuccess.2 (h.answered hready)⟩
    rw [if_pos (h.used (hsuccess.1 hdone))]

lemma uniqueName_storage {argument : Str} (hnow : J g) (n : ℕ) : ∀ attempt, attempt + n = 10000 →
    (∀ m < attempt, isThere (g.fs.status (s.candidatePath argument m)) = true) →
    Ends (calls J) (uniqueName s.current_directory_ (if argument = [] then ("ftpd" : Str) else
      Path.filename argument) attempt n)
      (fun r g' => g' = g ∧ ∀ unique ∈ r, ∃ m, unique = candidate argument m ∧ s.Tries g.fs argument m ∧
        isThere (g.fs.status (s.candidatePath argument m)) = false) E g := by
  induction n with
  | zero => exact fun _ _ _ => ends_pure ⟨rfl, fun _ h => by cases h⟩
  | succ n ih =>
    intro attempt hsum htaken
    have htries : s.Tries g.fs argument attempt := ⟨by omega, htaken⟩
    apply ends_call hnow
    intro found hfound
    obtain rfl : found = g.fs.status (s.candidatePath argument attempt) := hfound
    refine ends_ite (fun hfree => ends_pure ⟨rfl, fun unique hunique => ?_⟩) fun hthere => ?_
    · obtain rfl := Option.some.inj hunique
      exact ⟨attempt, rfl, htries, by simpa using hfree⟩
    · apply ih (attempt + 1) (by omega)
      intro m hm
      rcases Nat.lt_succ_iff_lt_or_eq.1 hm with hm | rfl
      · exact htaken m hm
      · simpa using hthere

lemma handleSTOU_storage (hs : s.socket_ ≠ none) (hg : Fresh g) (argument : Str) (hnow : ∀ g', g'.fs = g.fs → J g')
    (hJ : ∀ n, s.Tries g.fs argument n → isThere (g.fs.status (s.candidatePath argument n)) = false → ∀ g',
      (s.storingUnique (candidate argument n)).StoreCourse env g.fs
        ((s.storingUnique (candidate argument n)).resolvePath g.fs (candidate argument n)) g' → J g') :
    Ends (calls J) (s.handleSTOU env argument) (fun _ g' => J g') J g := by
  unfold handleSTOU
  dsimp only
  apply ends_bind
  apply (uniqueName_storage (hnow g rfl) 10000 0 rfl fun _ h => absurd h (Nat.not_lt_zero _)).mono ?_ fun _ => id
  rintro r g' ⟨rfl, hunique⟩
  cases r with
  | none =>
    apply ends_return hs fun _ => hnow _ rfl
    exact hnow _ rfl
  | some unique =>
    obtain ⟨n, rfl, htries, hfree⟩ := hunique unique rfl
    apply ends_bind
    apply (handleSTOR_storage (s := s.storingUnique (candidate argument n)) hs hg (candidate argument n)
      (hJ n htries hfree) fun g' h _ => hJ n htries hfree g' h).mono ?_ fun _ => id
    exact fun _ g' h => ends_pure (hJ n htries hfree g' h.course)

def appendStart (fs : FileSystem) (l : Location) (mode : FileSystem.OpenMode) : ℕ :=
  if mode = .truncate then 0 else (fs.content l).length

abbrev AppendCourse (fs : FileSystem) (path : Str) : Storage → Prop :=
  Course fs fs path (fun mode => mode = .append ∨ mode = .truncate ∧ fs.status path = .ok .notFound)
    (appendStart fs)
    fun peer => peer.chunks.flatten

structure Appends (fs : FileSystem) (path : Str) (g : Storage) (success consumed : Prop) : Prop where
  course : AppendCourse fs path g
  done : success → ∃ peer l mode, g.peers = [peer] ∧ g.targets = [(l, mode)] ∧ (fs.openWrite path mode).1 = .ok l ∧
    (mode = .append ∨ mode = .truncate ∧ fs.status path = .ok .notFound) ∧
    (g.unwritten = false → g.fs = (fs.openWrite path mode).2.put l (appendStart fs l mode) peer.chunks.flatten)
  used : success → consumed

lemma appendTo_storage {fs : FileSystem} {path : Str} {mode : FileSystem.OpenMode} {fd : Fd}
    (hs : s.socket_ ≠ none)
    (peer : Peer) (data_fd : Fd) (hl : (fs.openWrite path mode).1 = .ok l)
    (hwhy : mode = .append ∨ mode = .truncate ∧ fs.status path = .ok .notFound) (hfile : g.files fd = some (l, p))
    (hfs : g.fs = (fs.openWrite path mode).2) (hpeers : g.peers = [peer]) (htargets : g.targets = [(l, mode)])
    (hJ : ∀ g', AppendCourse fs path g' → J g') :
    Ends (calls J) (do
        appendLoop data_fd fd peer peer.chunks true
        perform (.close fd)
        perform (.close data_fd)
        s.reply 226 "Transfer complete"
        return { s with resume_position_ := 0 } : Io Session)
      (fun s' g' => Appends fs path g' (g'.completed = true) (s'.resume_position_ = 0)) E g := by
  have hend : ∀ b, g.fs.node l = some (.regular b) → appendStart fs l mode = b.length := by
    rw [hfs]
    exact FileSystem.openWrite_end hl
  have hcourse (g' : Storage) (h : g.Storing g' l (appendStart fs l mode) peer.chunks.flatten true) :
      AppendCourse fs path g' := by
    have hreceiving := Receiving.storing hpeers htargets h
    rw [hfs] at hreceiving
    exact .receiving peer l mode hwhy hl hreceiving
  apply ends_bind
  apply (appendLoop_stores data_fd fd peer peer.chunks peer.nonempty true _ g hfile hend
    fun g' h => hJ g' (hcourse g' h)).mono ?_ fun _ => id
  intro _ g' h
  have hc := hcourse g' h.storing
  apply ends_call (hJ g' hc)
  intro _ _
  apply ends_call
  · exact hJ _ (hc.congr rfl rfl rfl)
  intro _ _
  apply ends_return hs
  · exact fun _ => hJ _ (hc.congr rfl rfl rfl)
  refine ⟨hc.congr rfl rfl rfl, fun _ => ⟨peer, l, mode, ?_, ?_, hl, hwhy, fun hw => ?_⟩, fun _ => rfl⟩
  · exact (Receiving.storing hpeers htargets h.storing).peers
  · exact (Receiving.storing hpeers htargets h.storing).targets
  · rw [← hfs]
    exact h.whole rfl hw

lemma handleAPPE_storage (hs : s.socket_ ≠ none) (hg : Fresh g) (name : Str)
    (hJ : ∀ g', AppendCourse g.fs (s.resolvePath g.fs name) g' → J g') (hE : ∀ g', g'.fs = g.fs → E g') :
    Ends (calls J) (s.handleAPPE name) (fun s' g' => Appends g.fs (s.resolvePath g.fs name) g'
      (g'.completed = true) (s'.resume_position_ = 0)) E g := by
  have hidle {g' : Storage} {s' : Session} (hcourse : AppendCourse g.fs (s.resolvePath g.fs name) g')
      (hcompleted : g'.completed = false) : Appends g.fs (s.resolvePath g.fs name) g' (g'.completed = true)
        (s'.resume_position_ = 0) :=
    ⟨hcourse, fun h => absurd (hcompleted.symm.trans h) (by decide),
      fun h => absurd (hcompleted.symm.trans h) (by decide)⟩
  have hrefuse {code : ℕ} {text : Str} (s' : Session) (hcode : code ≠ 226) :
      Ends (calls J) (s.reply code text >>= fun _ => pure s')
        (fun s' g' => Appends g.fs (s.resolvePath g.fs name) g'
        (g'.completed = true) (s'.resume_position_ = 0)) E g := by
    apply ends_return hs fun _ => hJ _ (.before rfl)
    rw [replied_other hcode]
    exact hidle (.before rfl) hg.completed
  apply ends_call (hJ g (.before rfl))
  intro fs hfs
  obtain rfl : fs = g.fs := hfs
  refine ends_ite (fun _ => hrefuse s (by decide)) fun _ => ?_
  refine ends_ite (fun _ => hrefuse s (by decide)) fun _ => ?_
  refine ends_ite (fun _ => hrefuse s (by decide)) fun _ => ?_
  apply ends_reply_bind hs fun _ => hJ _ (.before rfl)
  rw [replied_other (by decide)]
  apply ends_accept
  · exact fun files peers => hJ _ (.before rfl)
  intro accepted d files
  rcases accepted with _ | ⟨data_fd, peer⟩
  · refine ends_return (s := { s with data := d }) (g := { g with files := files, peers := g.peers ++ [] }) hs
      (fun _ => hJ _ (.before rfl)) ?_
    rw [replied_other (by decide)]
    exact hidle (.before rfl) hg.completed
  apply ends_call
  · exact hJ _ (.before rfl)
  intro found hfound
  obtain rfl : found = g.fs.status (s.resolvePath g.fs name) := hfound
  apply ends_orThrow
  swap
  · exact fun _ _ => hE _ rfl
  intro found hfound
  have hmode : ∃ mode, (if found ≠ .notFound then FileSystem.OpenMode.append else .truncate) = mode ∧
      (mode = .append ∨ mode = .truncate ∧ g.fs.status (s.resolvePath g.fs name) = .ok .notFound) := by
    by_cases hmissing : found = .notFound
    · exact ⟨.truncate, by simp [hmissing], .inr ⟨rfl, by rw [hfound, hmissing]⟩⟩
    · exact ⟨.append, by simp [hmissing], .inl rfl⟩
  obtain ⟨mode, hmode, hwhy⟩ := hmode
  rw [hmode]
  apply ends_call
  · exact hJ _ (.before rfl)
  intro chosen hchosen
  cases chosen with
  | none =>
    apply ends_call
    · exact hJ _ (.refused mode rfl)
    intro _ _
    apply ends_return (s := { s with data := d }) hs
    · exact fun _ => hJ _ (.refused mode rfl)
    rw [replied_other (by decide)]
    exact hidle (.refused mode rfl) hg.completed
  | some fd =>
    obtain ⟨_, l, hl⟩ := hchosen fd rfl
    rw [next_opened hl]
    have hone : g.peers ++ [peer] = [peer] := by rw [hg.peers, List.nil_append]
    have htarget : g.targets ++ [(l, mode)] = [(l, mode)] := by rw [hg.targets, List.nil_append]
    have hfile (files : Fd → Option (Location × Int)) : Function.update files fd (some (l, 0)) fd = some (l, 0) :=
      Function.update_self ..
    exact appendTo_storage (s := { s with data := d }) (p := 0) hs peer data_fd hl hwhy
      (hfile _) rfl hone htarget hJ

end Session

end SimpleSftpd
