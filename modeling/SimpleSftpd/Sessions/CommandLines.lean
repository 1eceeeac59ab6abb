import SimpleSftpd.Core.HandleClient

namespace SimpleSftpd

open Cxx Interaction Prog

/-- The lines of a stream without their line feeds, and the fragment after the last one; `line` is
the line being read. -/
def splitLines (line : Str) : Str → List Str × Str
  | [] => ([], line)
  | c :: bytes =>
    if c = 10 then (line :: (splitLines [] bytes).1, (splitLines [] bytes).2)
    else splitLines (line ++ [c]) bytes

def rawLines (bytes : Str) : List Str := (splitLines [] bytes).1

def fragment (bytes : Str) : Str := (splitLines [] bytes).2

def commandLines (bytes : Str) : List Str := ((rawLines bytes).map chomp).filter (· ≠ [])

def isQuit (line : Str) : Bool := (Command.parse line).verb = .quit

namespace Session

def carriesOut (env : Service) (me : SessionId) (s : Session) (w : World) : List Str → List Str
  | [] => []
  | line :: lines =>
    if !w.active me then []
    else line :: match (s.dispatch env line).exec (World.machine me) w with
      | (.ok s', w') => if isQuit line then [] else carriesOut env me s' w' lines
      | (.error _, _) => []

end Session

def IsWhole (r : Str) : Prop := r.length ≤ 1024 ∨ (chomp r).length = 1025

def AllBlank (rs : List Str) : Prop := ∀ r ∈ rs, chomp r = []

/-- Every line up to a QUIT is whole; after a blank line, or one the limit falls behind, come
blank lines only; else there is no fragment at the end. -/
def Tame : List Str → Str → Prop
  | [], f => f = []
  | r :: rs, f =>
    if chomp r = [] then AllBlank rs
    else IsWhole r ∧ (isQuit (chomp r) = false → if r.length ≤ 1024 then Tame rs f else AllBlank rs)

section Reading

variable {o : Bool} {line r rest : Str}

def unsplit (rs : List Str) (f : Str) : Str := rs.foldr (fun r rest => r ++ 10 :: rest) f

lemma splitLines_spec (bytes : Str) (hline : 10 ∉ line) :
    unsplit (splitLines line bytes).1 (splitLines line bytes).2 = line ++ bytes ∧
      (∀ r ∈ (splitLines line bytes).1, 10 ∉ r) ∧ 10 ∉ (splitLines line bytes).2 := by
  induction bytes generalizing line with
  | nil => simpa [splitLines, unsplit] using hline
  | cons c bytes ih =>
    unfold splitLines
    split
    · rename_i hc
      obtain ⟨h, hr, hf⟩ := @ih [] (by simp)
      refine ⟨?_, by simpa [hline] using hr, hf⟩
      rw [unsplit, List.foldr_cons, ← unsplit, h, hc, List.nil_append]
    · rename_i hc
      obtain ⟨h, hr, hf⟩ := @ih (line ++ [c]) (by simpa [hline] using Ne.symm hc)
      exact ⟨by rw [h, List.append_assoc, List.singleton_append], hr, hf⟩

lemma readLineFrom_line (hr : 10 ∉ r) (h : line.length + r.length ≤ 1024) :
    readLineFrom o line (r ++ 10 :: rest) = ⟨chomp (line ++ r), ⟨rest, o⟩, true⟩ := by
  induction r generalizing line with
  | nil => simp [readLineFrom]
  | cons c r ih =>
    simp only [List.mem_cons, not_or, List.length_cons] at hr h
    have hlen : ¬(line ++ [c]).length > 1024 := by
      rw [List.length_append, List.length_singleton]
      omega
    rw [List.cons_append, readLineFrom, if_neg (Ne.symm hr.1), if_neg hlen, ih hr.2 (by simp; omega),
      List.append_assoc, List.singleton_append]

lemma readLineFrom_fragment (hr : 10 ∉ r) (h : line.length + r.length ≤ 1024) :
    readLineFrom o line r = ⟨line ++ r, ⟨[], o⟩, !o⟩ := by
  induction r generalizing line with
  | nil => simp [readLineFrom]
  | cons c r ih =>
    simp only [List.mem_cons, not_or, List.length_cons] at hr h
    have hlen : ¬(line ++ [c]).length > 1024 := by
      rw [List.length_append, List.length_singleton]
      omega
    rw [readLineFrom, if_neg (Ne.symm hr.1), if_neg hlen, ih hr.2 (by simp; omega),
      List.append_assoc, List.singleton_append]

lemma readLineFrom_long (hr : 10 ∉ r) (hline : line.length ≤ 1024) (h : 1024 < line.length + r.length) :
    readLineFrom o line (r ++ rest) =
      ⟨line ++ r.take (1025 - line.length), ⟨r.drop (1025 - line.length) ++ rest, o⟩, true⟩ := by
  induction r generalizing line with
  | nil =>
    rw [List.length_nil] at h
    omega
  | cons c r ih =>
    simp only [List.mem_cons, not_or, List.length_cons] at hr h
    rw [List.cons_append, readLineFrom, if_neg (Ne.symm hr.1)]
    by_cases hlen : line.length = 1024
    · simp [hlen]
    · have hshort : (line ++ [c]).length = line.length + 1 := by simp
      have hone : 1025 - line.length = (1025 - (line.length + 1)) + 1 := by omega
      rw [if_neg (by omega), ih hr.2 (by omega) (by omega), hshort, hone]
      simp

lemma chomp_eq_take (r : Str) : chomp r = r.take (chomp r).length := by
  unfold chomp
  split
  · rw [List.length_dropLast, List.dropLast_eq_take]
  · rw [List.take_length]

lemma chomp_length (r : Str) : (chomp r).length ≤ r.length ∧ r.length ≤ (chomp r).length + 1 := by
  rw [chomp]
  split
  · simp
    omega
  · simp

lemma chomp_drop (r : Str) : chomp (r.drop (chomp r).length) = [] := by
  by_cases h : r.getLast? = some 13
  · obtain ⟨init, rfl⟩ := List.getLast?_eq_some_iff.1 h
    simp [chomp]
  · simp [chomp, h]

end Reading

namespace Session

variable (env : Service) (me : SessionId)

def goesOn (s : Session) (w : World) (line : Str) : Option (Session × World) :=
  match (s.dispatch env line).exec (World.machine me) w with
  | (.ok s', w') => if isQuit line ∨ w'.active me = false then none else some (s', w')
  | (.error _, _) => none

def TameFor : Session → World → List Str → Str → Prop
  | _, _, [], f => f = []
  | s, w, r :: rs, f =>
    if chomp r = [] then AllBlank rs
    else IsWhole r ∧ ∀ s' w', s.goesOn env me w (chomp r) = some (s', w') →
      if r.length ≤ 1024 then TameFor s' w' rs f else AllBlank rs

variable {env me} {s : Session} {w : World}

lemma goesOn_some {line : Str} {s' : Session} {w' : World} (h : s.goesOn env me w line = some (s', w')) :
    (s.dispatch env line).exec (World.machine me) w = (.ok s', w') ∧ w'.active me = true := by
  unfold goesOn at h
  split at h
  · rename_i t v he
    split at h
    · cases h
    · rename_i hgo
      cases h
      exact ⟨he, by simpa using fun h => hgo (.inr h)⟩
  · cases h

lemma goesOn_quit {line : Str} {next : Session × World} (h : s.goesOn env me w line = some next) :
    isQuit line = false := by
  unfold goesOn at h
  split at h
  · split at h
    · cases h
    · rename_i hgo
      simpa using fun hq => hgo (.inl hq)
  · cases h

lemma carriesOut_stopped (hw : w.active me = false) (lines : List Str) :
    s.carriesOut env me w lines = [] := by
  cases lines <;> simp [carriesOut, hw]

lemma serve_stopped (hw : w.active me = false) (fuel : ℕ) (control : Control) :
    serve env me fuel s w control = [] := by
  cases fuel <;> simp [serve, hw]

lemma carriesOut_cons (hw : w.active me = true) (line : Str) (lines : List Str) :
    s.carriesOut env me w (line :: lines) = line :: match s.goesOn env me w line with
      | some (s', w') => s'.carriesOut env me w' lines
      | none => [] := by
  unfold goesOn
  rw [carriesOut, if_neg (by simp [hw])]
  split
  · rename_i s' w' he
    by_cases hq : isQuit line = true
    · simp [hq]
    · by_cases ha : w'.active me = true
      · simp [hq, ha]
      · simp [hq, ha, carriesOut_stopped (Bool.eq_false_iff.2 ha)]
  · rfl

lemma carriesOut_eq_nil (hw : w.active me = true) (rs : List Str) :
    s.carriesOut env me w ((rs.map chomp).filter (· ≠ [])) = [] ↔ AllBlank rs := by
  cases h : (rs.map chomp).filter (· ≠ []) with
  | nil => simpa [carriesOut, AllBlank] using h
  | cons line lines =>
    simp only [carriesOut_cons hw, reduceCtorEq, false_iff]
    intro hblank
    have hmem : line ∈ (rs.map chomp).filter (· ≠ []) := h ▸ List.mem_cons_self
    obtain ⟨hm, hne⟩ := List.mem_filter.1 hmem
    obtain ⟨r, hr, rfl⟩ := List.mem_map.1 hm
    exact of_decide_eq_true hne (hblank r hr)

lemma serve_line {fuel : ℕ} {control : Control} (hs : s.socket_ ≠ none) (hw : w.active me = true)
    {received : Received} (hr : readLineFrom control.orderly [] control.bytes = received)
    (hline : received.line ≠ []) (hactive : received.active_ = true) :
    serve env me (fuel + 1) s w control = received.line :: match s.goesOn env me w received.line with
      | some (s', w') => serve env me fuel s' w' received.rest
      | none => [] := by
  simp only [serve, readLine, if_neg hs, hr, hw, Bool.not_true, Bool.false_eq_true, ↓reduceIte, hline,
    hactive, goesOn]
  rcases he : (s.dispatch env received.line).exec (World.machine me) w with ⟨_ | s', w'⟩
  · rfl
  · by_cases hq : (Command.parse received.line).verb = .quit
    · simp [isQuit, hq]
    · by_cases ha : w'.active me = true
      · simp [isQuit, hq, ha]
      · simp [isQuit, hq, ha, serve_stopped (Bool.eq_false_iff.2 ha)]

lemma dispatch_socket {line : Str} {s' : Session} {w' : World}
    (h : (s.dispatch env line).exec (World.machine me) w = (.ok s', w')) : s'.socket_ = s.socket_ := by
  rcases (dispatch_within line).exec _ h with rfl | he
  · rfl
  · exact he.frame.socket

lemma serve_blank {fuel : ℕ} {o : Bool} {bytes : Str} (hs : s.socket_ ≠ none)
    (hr : (readLineFrom o [] bytes).line = []) : serve env me fuel s w ⟨bytes, o⟩ = [] := by
  cases fuel with
  | zero => rfl
  | succ fuel =>
    unfold serve
    split
    · rfl
    · simp only [readLine, if_neg hs, hr, ↓reduceIte]

lemma serve_fragment {fuel : ℕ} {o : Bool} {f : Str} (hs : s.socket_ ≠ none) (hw : w.active me = true)
    (hf : 10 ∉ f) (hne : f ≠ []) : serve env me (fuel + 1) s w ⟨f, o⟩ ≠ [] := by
  have hline : (readLineFrom o [] f).line ≠ [] := by
    by_cases hlen : f.length ≤ 1024
    · rw [readLineFrom_fragment hf (by simpa using hlen)]
      exact hne
    · have h := @readLineFrom_long o [] f [] hf (Nat.zero_le 1024) (by simpa using hlen)
      rw [List.append_nil] at h
      rw [h]
      simpa using hne
  unfold serve
  simp [readLine, hs, hw, hline]

theorem serve_eq_iff {rs : List Str} {f : Str} {o : Bool} {fuel : ℕ} (hs : s.socket_ ≠ none)
    (hw : w.active me = true) (hrs : ∀ r ∈ rs, 10 ∉ r) (hf : 10 ∉ f) (hfuel : (unsplit rs f).length < fuel) :
    serve env me fuel s w ⟨unsplit rs f, o⟩ =
      s.carriesOut env me w ((rs.map chomp).filter (· ≠ [])) ↔ TameFor env me s w rs f := by
  induction rs generalizing s w fuel with
  | nil =>
    obtain ⟨fuel, rfl⟩ := Nat.exists_eq_add_one_of_ne_zero (Nat.ne_zero_of_lt hfuel)
    by_cases hne : f = []
    · subst hne
      have hread : (readLineFrom o [] (unsplit [] [])).line = [] := rfl
      simp [serve_blank hs hread, carriesOut, TameFor]
    · simpa [unsplit, carriesOut, TameFor, hne] using serve_fragment hs hw hf hne
  | cons r rs ih =>
    obtain ⟨fuel, rfl⟩ := Nat.exists_eq_add_one_of_ne_zero (Nat.ne_zero_of_lt hfuel)
    have hsplit : unsplit (r :: rs) f = r ++ 10 :: unsplit rs f := rfl
    have hr : 10 ∉ r := hrs r List.mem_cons_self
    have hrs' : ∀ r ∈ rs, 10 ∉ r := fun r h => hrs r (List.mem_cons_of_mem _ h)
    rw [hsplit] at hfuel ⊢
    by_cases hblank : chomp r = []
    · have hlen := (chomp_length r).2
      simp only [hblank, List.length_nil] at hlen
      have hread : (readLineFrom o [] (r ++ 10 :: unsplit rs f)).line = [] := by
        rw [readLineFrom_line hr (by simp; omega)]
        exact hblank
      rw [serve_blank hs hread, eq_comm, List.map_cons, List.filter_cons_of_neg (by simpa using hblank),
        carriesOut_eq_nil hw, TameFor, if_pos hblank]
    rw [List.map_cons, List.filter_cons_of_pos (by simpa using hblank), carriesOut_cons hw, TameFor,
      if_neg hblank]
    by_cases hlen : r.length ≤ 1024
    · rw [serve_line hs hw (readLineFrom_line hr (by simpa using hlen)) hblank rfl, List.nil_append]
      simp only [List.cons.injEq, true_and, IsWhole, hlen, true_or, if_true]
      rcases hgo : s.goesOn env me w (chomp r) with _ | ⟨s', w'⟩
      · simp
      · obtain ⟨he, hw'⟩ := goesOn_some hgo
        have hs' : s'.socket_ ≠ none := dispatch_socket he ▸ hs
        simp only [List.length_append, List.length_cons] at hfuel
        simpa using ih hs' hw' hrs' (by omega)
    · have hread := @readLineFrom_long o [] r (10 :: unsplit rs f) hr (Nat.zero_le 1024)
        (by simpa using hlen)
      rw [List.nil_append, List.length_nil, Nat.sub_zero] at hread
      rw [serve_line hs hw hread (by simpa using fun h => hlen (by simp [h])) rfl]
      simp only [List.cons.injEq, IsWhole, hlen, false_or, if_false]
      by_cases hwhole : (chomp r).length = 1025
      · have htake : r.take 1025 = chomp r := by rw [chomp_eq_take r, hwhole]
        have hrest : (readLineFrom o [] (r.drop 1025 ++ 10 :: unsplit rs f)).line = [] := by
          have hdrop := chomp_drop r
          rw [hwhole] at hdrop
          rw [readLineFrom_line (fun h => hr (List.mem_of_mem_drop h))]
          · exact hdrop
          · have := (chomp_length r).2
            simp
            omega
        simp only [htake, true_and, hwhole]
        rcases hgo : s.goesOn env me w (chomp r) with _ | ⟨s', w'⟩
        · simp
        · obtain ⟨he, hw'⟩ := goesOn_some hgo
          have hs' : s'.socket_ ≠ none := dispatch_socket he ▸ hs
          simp only [serve_blank hs' hrest, eq_comm (a := []), carriesOut_eq_nil hw']
          simp
      · have htake : r.take 1025 ≠ chomp r := fun h => hwhole (by
          rw [← h, List.length_take]
          omega)
        simp [htake, hwhole]

structure Apart (s : Session) : Prop where
  socket : s.socket_ ≠ none
  loggedOut : s.authenticated_ = false
  plain : s.ssl_enabled_ = false ∧ s.ssl_active_ = false
  host : s.current_virtual_host_ = none
  data : s.data.data_socket_ = none ∧ s.data.passive_listen_socket_ = none

end Session

def attentive : Contract Call Unit where
  pre _ o := o.reply?.isSome ∨ o.kind = .clock
  post _ o := match o with
    | .sendControl _ _ => fun r => r = true
    | _ => fun _ => True
  next _ _ _ := ()

def World.Heard (me : SessionId) (w : World) : Prop :=
  w.active me = true ∧ ∀ n tls r, w.choose n (.sendControl tls r) = true

lemma attentive_describes (me : SessionId) :
    attentive.Describes (World.machine me) fun _ w => w.Heard me := by
  intro β g w o hw ho
  cases o with
  | sendControl tls r => exact ⟨hw.2 _ _ _, hw⟩
  | steadyNow | systemNow | sleepFor => exact ⟨trivial, hw⟩
  | _ => rcases ho with ho | ho <;> cases ho

namespace Session

variable {s : Session} {w : World} {me : SessionId}

@[simp] lemma wp_sendResponse_attentive (r : Reply) (Q : Except Abort Unit → Unit → Prop) :
    (s.sendResponse r).wp attentive Q () ↔ Q (.ok ()) () := by
  unfold sendResponse
  split
  · simp
  · simp [attentive, Call.reply?]

@[simp] lemma wp_reply_attentive (code : ℕ) (text : Str) (Q : Except Abort Unit → Unit → Prop) :
    (s.reply code text).wp attentive Q () ↔ Q (.ok ()) () := wp_sendResponse_attentive _ _

@[simp] lemma wp_sendLines_attentive (rs : List Reply) (Q : Except Abort Unit → Unit → Prop) :
    (s.sendLines rs).wp attentive Q () ↔ Q (.ok ()) () := by
  induction rs with
  | nil => simp [sendLines]
  | cons r rs ih => simp [sendLines, ih]

def nobody : Service := .standard [] []

lemma nobody_user (u : Str) : nobody.user_manager_.getUser u = none := rfl

lemma wp_reply_return {α : Type} {r : α} {code : ℕ} {text : Str} {P : α → Prop} (hr : P r) :
    (s.reply code text >>= fun _ => pure r).wp attentive (fun x _ => ∃ a, x = .ok a ∧ P a) () := by
  simpa using hr

lemma handleOPTS_attentive (a : Str) :
    (s.handleOPTS a).wp attentive (fun x _ => ∃ b, x = .ok b) () := by
  simp [handleOPTS]

lemma apart_auth (h : s.Apart) (a : Str) :
    (s.handleAUTH a).wp attentive (fun x _ => ∃ s', x = .ok s' ∧ s'.Apart) () := by
  simpa [handleAUTH, loadHostCertificate, h.plain, h.host] using ⟨fun _ => h, fun _ _ => h⟩

lemma apart_host (h : s.Apart) (a : Str) :
    (s.handleHOST nobody a).wp attentive (fun x _ => ∃ s', x = .ok s' ∧ s'.Apart) () := by
  unfold handleHOST
  split
  · exact wp_reply_return h
  · exact wp_reply_return h

lemma apart_pass (h : s.Apart) (a : Str) :
    (s.handlePASS nobody a).wp attentive (fun x _ => ∃ s', x = .ok s' ∧ s'.Apart) () := by
  unfold handlePASS
  split
  · exact wp_reply_return h
  · have hstored : s.storedUser nobody = none := by simp [storedUser, h.host, nobody_user]
    have hpam : (nobody.config_.security.enable_pam && nobody.havePam) = false := by decide
    rw [wp_bind, checkPassword, hstored]
    refine (wp_bind attentive _ _ _ _).2 ⟨.inr rfl, fun now _ => ?_⟩
    simp only [Option.any_none, Bool.false_eq_true, ↓reduceIte, hpam]
    exact wp_reply_return ⟨h.socket, h.loggedOut, h.plain, h.host, h.data⟩

lemma apart_wp (h : s.Apart) (line : Str) (hq : isQuit line = false) :
    (s.dispatch nobody line).wp attentive (fun x _ => ∃ s', x = .ok s' ∧ s'.Apart) () := by
  rcases dispatch_cases nobody s line with ⟨hb, hd⟩ | ⟨_, _, hd⟩
  · rw [h.loggedOut, or_iff_left Bool.false_ne_true] at hb
    rw [hd]
    unfold isQuit at hq
    generalize Command.parse line = c at hb hq
    rcases c with ⟨v, a⟩
    cases v with
    | quit => cases hq
    | user => exact wp_reply_return ⟨h.socket, rfl, h.plain, h.host, h.data⟩
    | noop | syst => exact wp_reply_return h
    | feat | help => exact (wp_bind attentive _ _ _ _).2 ((wp_sendLines_attentive _ _).2 ⟨s, rfl, h⟩)
    | pbsz =>
      refine (wp_bind attentive _ _ _ _).2 ?_
      simpa [handlePBSZ] using ⟨fun _ => h, fun _ => h⟩
    | pass => exact apart_pass h a
    | auth => exact apart_auth h a
    | prot =>
      refine (wp_bind attentive _ _ _ _).2 ?_
      rw [handlePROT, if_pos (by simp [h.plain.2])]
      exact (wp_bind attentive _ _ _ _).2 ((wp_reply_attentive _ _ _).2 ⟨_, rfl, h⟩)
    | host => exact apart_host h a
    | opts =>
      refine (wp_bind attentive _ _ _ _).2 (wp_mono attentive (handleOPTS_attentive a) ?_)
      rintro _ _ ⟨b, rfl⟩
      exact ⟨_, rfl, h.socket, h.loggedOut, h.plain, h.host, h.data⟩
    | abor =>
      refine (wp_bind attentive _ _ _ _).2 ?_
      simpa [handleABOR, DataConnection.closeDataSocket, closeHeld, h.data] using
        ⟨h.socket, h.loggedOut, h.plain, h.host, rfl, rfl⟩
    | _ => cases hb
  · rw [hd]
    exact wp_reply_return h

lemma goesOn_apart (h : s.Apart) (hw : w.Heard me) {line : Str} (hq : isQuit line = false) : ∃ s' w',
    s.goesOn nobody me w line = some (s', w') ∧ s'.Apart ∧ w'.Heard me := by
  obtain ⟨_, hw', s', he, hs'⟩ := wp_exec (attentive_describes me) (apart_wp h line hq) hw
  rcases hrun : (s.dispatch nobody line).exec (World.machine me) w with ⟨x, w'⟩
  rw [hrun] at hw' he
  subst he
  have hactive : w'.active me = true := hw'.1
  exact ⟨s', w', by simp [goesOn, hrun, hq, hactive], hs', hw'⟩

lemma tame_of_tameFor {rs : List Str} {f : Str} (h : s.Apart) (hw : w.Heard me)
    (ht : TameFor nobody me s w rs f) : Tame rs f := by
  induction rs generalizing s w with
  | nil => exact ht
  | cons r rs ih =>
    unfold Tame
    unfold TameFor at ht
    split
    · rename_i hblank
      rwa [if_pos hblank] at ht
    · rename_i hblank
      rw [if_neg hblank] at ht
      refine ⟨ht.1, fun hq => ?_⟩
      obtain ⟨s', w', hgo, hs', hw'⟩ := goesOn_apart h hw hq
      have hrest := ht.2 s' w' hgo
      split at hrest
      · rename_i hlen
        rw [if_pos hlen]
        exact ih hs' hw' hrest
      · rename_i hlen
        rwa [if_neg hlen]

lemma tameFor_of_tame (env : Service) {rs : List Str} {f : Str} (ht : Tame rs f) :
    TameFor env me s w rs f := by
  induction rs generalizing s w with
  | nil => exact ht
  | cons r rs ih =>
    unfold TameFor
    unfold Tame at ht
    split
    · rename_i hblank
      rwa [if_pos hblank] at ht
    · rename_i hblank
      rw [if_neg hblank] at ht
      refine ⟨ht.1, fun s' w' hgo => ?_⟩
      have hrest := ht.2 (goesOn_quit hgo)
      split at hrest
      · rename_i hlen
        rw [if_pos hlen]
        exact ih hrest
      · rename_i hlen
        rwa [if_neg hlen]

end Session

lemma split_spec (bytes : Str) : unsplit (rawLines bytes) (fragment bytes) = bytes ∧
    (∀ r ∈ rawLines bytes, 10 ∉ r) ∧ 10 ∉ fragment bytes := splitLines_spec bytes (by simp)

/-- What a session carries out of what its client sends is, on exactly the tame streams and for
every session, its complete lines that are not blank. -/
theorem dispatched_are_lines (bytes : Str) :
    (∀ (env : Service) (me : SessionId) (s : Session) (w : World) (orderly : Bool), s.IsNew →
      s.handleClient env me w ⟨bytes, orderly⟩ = s.carriesOut env me (s.greet me w) (commandLines bytes)) ↔
    Tame (rawLines bytes) (fragment bytes) := by
  obtain ⟨hsplit, hrs, hf⟩ := split_spec bytes
  have hiff {env : Service} {me : SessionId} {s : Session} {w : World} {orderly : Bool}
      (hs : s.socket_ ≠ none) (hw : w.active me = true) :
      Session.serve env me (bytes.length + 1) s w ⟨bytes, orderly⟩ = s.carriesOut env me w (commandLines bytes) ↔
        s.TameFor env me w (rawLines bytes) (fragment bytes) := by
    have hfuel : (unsplit (rawLines bytes) (fragment bytes)).length < bytes.length + 1 := by
      rw [hsplit]
      omega
    have h := @Session.serve_eq_iff env me s w _ _ orderly _ hs hw hrs hf hfuel
    rwa [hsplit] at h
  constructor
  · intro h
    have hs : (Session.opened 3 false false).Apart := ⟨by simp [Session.opened], rfl, ⟨rfl, rfl⟩, rfl, rfl, rfl⟩
    have hw : ((Session.opened 3 false false).greet 0 (.favourable ⟨[], [], fun _ _ _ => none, []⟩)).Heard 0 :=
      ⟨rfl, fun _ _ _ => rfl⟩
    exact Session.tame_of_tameFor hs hw ((hiff hs.socket hw.1).1 (h _ 0 _ _ true ⟨_, _, _, rfl⟩))
  · rintro ht env me s w orderly ⟨fd, context, ssl, rfl⟩
    by_cases hw : ((Session.opened fd context ssl).greet me w).active me = true
    · exact (hiff (by simp [Session.opened]) hw).2 (Session.tameFor_of_tame env ht)
    · have hw := Bool.eq_false_iff.2 hw
      rw [Session.carriesOut_stopped hw, Session.handleClient, Session.serve_stopped hw]

def sampleServed (bytes : Str) : List Str × List Str :=
  let s := Session.opened 3 false false
  let w := World.favourable ⟨[], [], fun _ _ _ => none, []⟩
  (s.handleClient Session.nobody 0 w ⟨bytes, true⟩,
    s.carriesOut Session.nobody 0 (s.greet 0 w) (commandLines bytes))

theorem dispatched_are_not_lines :
    sampleServed "NOOP\r\n\r\nSYST\r\n" = ([ascii "NOOP"], [ascii "NOOP", ascii "SYST"]) ∧
      sampleServed "NOOP" = ([ascii "NOOP"], []) ∧
      sampleServed (List.replicate 1030 65 ++ [10]) =
        ([List.replicate 1025 65, List.replicate 5 65], [List.replicate 1030 65]) := by
  decide +kernel

end SimpleSftpd
