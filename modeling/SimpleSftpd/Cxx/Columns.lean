import SimpleSftpd.Cxx.Fields

namespace SimpleSftpd.Cxx

def columns : ℕ → Str → Option (List Str × Str)
  | 0, line => some ([], line)
  | n + 1, line => (cut 32 line).bind fun first =>
    (columns n first.2).map fun rest => (first.1 :: rest.1, rest.2)

def columnsLine (parts : List Str) (name : Str) : Str := parts.flatMap (· ++ [32]) ++ name

structure IsColumn (part : Str) : Prop where
  blank : 32 ∉ part
  lineFeed : 10 ∉ part

section

variable {parts : List Str} {name : Str} (h : ∀ part ∈ parts, IsColumn part)
include h

variable (name) in
lemma columns_columnsLine : columns parts.length (columnsLine parts name) = some (parts, name) := by
  induction parts with
  | nil => rfl
  | cons part parts ih =>
    obtain ⟨hpart, hparts⟩ := List.forall_mem_cons.1 h
    have hcut : cut 32 (columnsLine (part :: parts) name) = some (part, columnsLine parts name) := by
      rw [columnsLine, List.flatMap_cons, List.append_assoc, List.append_assoc]
      exact cut_append hpart.blank _
    rw [List.length_cons, columns, hcut, Option.bind_some, ih hparts]
    rfl

lemma notMem_columnsLine (hname : 10 ∉ name) : 10 ∉ columnsLine parts name := by
  simp only [columnsLine, List.mem_append, List.mem_flatMap, not_or, not_exists, not_and]
  exact ⟨fun part hpart => ⟨(h part hpart).lineFeed, by decide⟩, hname⟩

end

abbrev Fact := Str × Str

structure Fact.Plain (f : Fact) : Prop where
  key : IsColumn f.1 ∧ 59 ∉ f.1 ∧ 61 ∉ f.1
  value : IsColumn f.2 ∧ 59 ∉ f.2

lemma plain_fact {key value : Str} (hkey : IsColumn key ∧ 59 ∉ key ∧ 61 ∉ key)
    (hvalue : IsColumn value ∧ 59 ∉ value) :
    Fact.Plain (key, value) := ⟨hkey, hvalue⟩

def Fact.text (f : Fact) : Str := f.1 ++ 61 :: f.2

def factsLine (facts : List Fact) (name : Str) : Str := facts.flatMap (fun f => f.text ++ [59]) ++ 32 :: name

def readFacts (line : Str) : Option (List Fact × Str) :=
  (cut 32 line).bind fun parts => ((tokens 59 parts.1).mapM (cut 61)).map fun facts => (facts, parts.2)

variable {f : Fact} {facts : List Fact}

lemma Fact.Plain.notMem_text {d : Byte} (hd : d ≠ 61) (hkey : d ∉ f.1) (hvalue : d ∉ f.2) : d ∉ f.text := by
  simp only [Fact.text, List.mem_append, List.mem_cons, not_or]
  exact ⟨hkey, hd, hvalue⟩

lemma mapM_cut_text (h : ∀ f ∈ facts, Fact.Plain f) : (facts.map Fact.text).mapM (cut 61) = some facts := by
  induction facts with
  | nil => rfl
  | cons f facts ih =>
    obtain ⟨hf, hfacts⟩ := List.forall_mem_cons.1 h
    have hcut : cut 61 f.text = some f := cut_append hf.key.2.2 f.2
    rw [List.map_cons, List.mapM_cons, hcut, ih hfacts]
    rfl

lemma readFacts_factsLine (h : ∀ f ∈ facts, Fact.Plain f) (name : Str) :
    readFacts (factsLine facts name) = some (facts, name) := by
  have htexts : facts.flatMap (fun f => f.text ++ [59]) = (facts.map Fact.text).flatMap (· ++ [59]) := by
    rw [List.flatMap_map]
  have hblank : 32 ∉ facts.flatMap fun f => f.text ++ [59] := by
    intro hmem
    obtain ⟨f, hf, hmem⟩ := List.mem_flatMap.1 hmem
    have htext : 32 ∉ f.text := Fact.Plain.notMem_text (by decide) (h f hf).key.1.blank (h f hf).value.1.blank
    simp [htext] at hmem
  have htokens : tokens 59 (facts.flatMap fun f => f.text ++ [59]) = facts.map Fact.text := by
    rw [htexts]
    apply tokens_lines
    intro text htext
    obtain ⟨f, hf, rfl⟩ := List.mem_map.1 htext
    exact Fact.Plain.notMem_text (by decide) (h f hf).key.2.1 (h f hf).value.2
  rw [readFacts, factsLine, cut_append hblank, Option.bind_some, htokens, mapM_cut_text h]
  rfl

lemma notMem_factsLine {name : Str} (h : ∀ f ∈ facts, Fact.Plain f) (hname : 10 ∉ name) :
    10 ∉ factsLine facts name := by
  simp only [factsLine, List.mem_append, List.mem_flatMap, List.mem_cons, not_or, not_exists, not_and]
  refine ⟨fun f hf => ⟨?_, by decide⟩, by decide, hname⟩
  exact Fact.Plain.notMem_text (by decide) (h f hf).key.1.lineFeed (h f hf).value.1.lineFeed

end SimpleSftpd.Cxx
