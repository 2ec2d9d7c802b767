import TableDdl.AlterTable
import TableDdl.Proofs.CreateTable.RoundTrip
import TableDdl.Proofs.Statement.Names

/-!
# Codecs of changes to a table

Optional words such as `COLUMN` are always written, and of two words for the same thing the first.
-/
namespace TableDdl

open Writes

def ColumnPosition.written (p : ColumnPosition) : Written := .plain p.layout.lexemes

def AlterColumnAction.written (a : AlterColumnAction) : Written := ⟨a.layout.lexemes, [], a.heads⟩

def AlterOption.written (o : AlterOption) : Written := ⟨o.layout.lexemes, o.looseNames, o.heads⟩

namespace Codec

section Rest

variable {α β : Type} {written : α → Written} {ls ms : List Lexeme} {r : DdlRule α}

/-- The text of a value without the words before it, which several parts of an alteration
share. -/
def Rest (written : α → Written) (ls : List Lexeme) : α → Written → Prop :=
  fun x t => written x = .plain ls ++ t

/-- One of the words is read before the rest. -/
def lead {s : DdlRule β} (m : Mark s ms) (F : Codec r (Rest written (ls ++ ms))) :
    Codec (s *> r) (Rest written ls) :=
  (F.after m).restate (by
    rintro x _ ⟨u, whole, rfl⟩
    rw [Rest, whole, ← Written.append_assoc]
    rfl)

def restTo {s : DdlRule β} {text : β → Written} (f : β → α) (F : Codec s (Exactly text))
    (same : ∀ x, written (f x) = .plain ls ++ text x := by intro; rfl) :
    Codec (f <$> s) (Rest written ls) :=
  (F.map f).restate (by
    rintro _ _ ⟨x, rfl, rfl⟩
    exact same x)

def restAs {s : DdlRule β} (m : Mark s ms) (value : α)
    (same : written value = .plain (ls ++ ms) := by rfl) : Codec (s.as value) (Rest written ls) :=
  (as m value).restate (by
    rintro _ _ ⟨rfl, rfl⟩
    exact same)

/-- Where nothing comes before it, the rest is the whole. -/
def whole (F : Codec r (Rest written [])) : Codec r (Exactly written) :=
  F.restate fun _ _ rest => rest.symm

end Rest

def columnKeyword : Mark Grammar.columnKeyword [.word "COLUMN"] := .given (.word "COLUMN")

def checkKeyword : Mark Grammar.checkOrConstraint [.word "CHECK"] :=
  .left (Grammar.literal "CONSTRAINT") (.word "CHECK")

def indexKeyword : Mark Grammar.indexOrKey [.word "INDEX"] :=
  .left (Grammar.literal "KEY") (.word "INDEX")

def columnPosition : Codec Grammar.columnPosition (Exactly ColumnPosition.written) :=
  (asTo (.word "FIRST") ColumnPosition.first _).orElse
    (mapTo ColumnPosition.after _ (identifier.led (.word "AFTER")))

def columns : Codec (Grammar.parenthesized (Grammar.commaList Grammar.column))
    (Exactly fun cs => ⟨(Layout.parenthesized
      (Layout.commaSeparated (cs.map Column.layout))).lexemes,
      cs.flatMap Column.looseNames, cs.flatMap Column.heads⟩) :=
  (commas column).parenthesized.restate (by
    rintro cs _ ⟨_, ⟨_, ⟨-, rfl⟩, rfl⟩, rfl⟩
    apply Written.ext <;> simp)

abbrev AlterRest : List Lexeme → AlterOption → Written → Prop := Rest AlterOption.written

/-- A column and its place. -/
def placedColumn : Codec (AlterOption.addColumn <$> Grammar.column
    <*> Grammar.columnPosition.optional) (AlterRest [.word "ADD", .word "COLUMN"]) :=
  ((column.map AlterOption.addColumn).seq columnPosition.given).restate (by
    rintro _ _ ⟨_, position, _, _, ⟨c, rfl, rfl⟩, rfl, rfl, rfl⟩
    apply Written.ext <;> simp [AlterOption.written, AlterOption.layout, AlterOption.looseNames,
      AlterOption.heads, Column.written, ColumnPosition.written])

def addColumn : Codec Grammar.addColumn (AlterRest [.word "ADD"]) :=
  lead columnKeyword ((restTo AlterOption.addColumns columns).orElse placedColumn)

def add : Codec Grammar.add (Exactly AlterOption.written) :=
  whole (lead (.word "ADD") ((restTo AlterOption.addKey keyDefinition).orElse addColumn))

def drop : Codec Grammar.drop (Exactly AlterOption.written) :=
  whole (lead (.word "DROP") (choice
    (alternative (restTo AlterOption.dropCheck (identifier.led checkKeyword))) [
    alternative (restAs ((Mark.word "PRIMARY").after (.word "KEY")) AlterOption.dropPrimaryKey),
    alternative (restTo AlterOption.dropForeignKey
      (identifier.led ((Mark.word "FOREIGN").after (.word "KEY")))),
    alternative (restTo AlterOption.dropIndex (identifier.led indexKeyword)),
    alternative (restTo AlterOption.dropColumn (identifier.led columnKeyword))]))

def setVisible : Codec ((Grammar.literal "SET" *> Grammar.literal "VISIBLE").as
      (AlterColumnAction.setVisible true)
    <|> (Grammar.literal "SET" *> Grammar.literal "INVISIBLE").as (.setVisible false))
    (fun a t => ∃ visible, a = .setVisible visible ∧ t = a.written) :=
  ((as ((Mark.word "SET").after (.word "VISIBLE")) (AlterColumnAction.setVisible true)).orForeseen
    (as ((Mark.word "SET").after (.word "INVISIBLE")) (AlterColumnAction.setVisible false))
    [[.word "SET", .word "INVISIBLE"]] (by
    rintro _ _ ⟨-, rfl⟩
    exact ⟨_, List.mem_cons_self, List.prefix_rfl⟩)).restate (by
    rintro _ _ (⟨rfl, rfl⟩ | ⟨rfl, rfl⟩)
    · exact ⟨true, rfl, rfl⟩
    · exact ⟨false, rfl, rfl⟩)

/-- The default is set and the visibility is set after the same word. -/
def alterColumnAction : Codec Grammar.alterColumnAction (Exactly AlterColumnAction.written) :=
  ((mapTo AlterColumnAction.setDefault AlterColumnAction.written
      (defaultValue.led ((Mark.word "SET").after (.word "DEFAULT")))).orForeseen
    ((as ((Mark.word "DROP").after (.word "DEFAULT")) AlterColumnAction.dropDefault).either
      setVisible)
    [[.word "DROP"], [.word "SET", .word "VISIBLE"], [.word "SET", .word "INVISIBLE"]] (by
    rintro _ _ (⟨-, rfl⟩ | ⟨visible, rfl, rfl⟩)
    · exact ⟨[.word "DROP"], by simp, [.word "DEFAULT"], rfl⟩
    · cases visible
      · exact ⟨[.word "SET", .word "INVISIBLE"], by simp, List.prefix_rfl⟩
      · exact ⟨[.word "SET", .word "VISIBLE"], by simp, List.prefix_rfl⟩)).restate (by
    rintro _ _ (rfl | ⟨rfl, rfl⟩ | ⟨_, -, rfl⟩) <;> rfl)

/-- A name and what is done with it. -/
def named {s : DdlRule β} {α : Type} {r : DdlRule α} {text : α → Written} {ls ms : List Lexeme}
    (f : String → α → AlterOption) (m : Mark s ms) (F : Codec r (Exactly text))
    (same : ∀ name x, (f name x).written = .plain (ls ++ ms ++ [.name name]) ++ text x) :
    Codec (f <$> (s *> Grammar.identifier) <*> r) (AlterRest ls) :=
  (((identifier.led m).map f).seq F).restate (by
    rintro _ _ ⟨_, x, _, _, ⟨name, rfl, rfl⟩, rfl, rfl, rfl⟩
    refine (same name x).trans ?_
    apply Written.ext <;> simp)

def alter : Codec Grammar.alter (Exactly AlterOption.written) :=
  whole (lead (.word "ALTER") ((named AlterOption.alterCheck checkKeyword enforcement (by
      intro name enforced
      apply Written.ext <;> simp [AlterOption.written, AlterOption.layout, AlterOption.looseNames,
        AlterOption.heads])).orElse
    ((named AlterOption.alterIndex (.word "INDEX") visibility (by
      intro name visible
      apply Written.ext <;> simp [AlterOption.written, AlterOption.layout, AlterOption.looseNames,
        AlterOption.heads])).orElse
    (named AlterOption.alterColumn columnKeyword alterColumnAction (by
      intro name action
      apply Written.ext <;> simp [AlterOption.written, AlterOption.layout, AlterOption.looseNames,
        AlterOption.heads, AlterColumnAction.written])))))

def modify : Codec Grammar.modify (Exactly AlterOption.written) :=
  ((column.led ((Mark.word "MODIFY").after columnKeyword)).map AlterOption.modifyColumn).seq
    columnPosition.given |>.restate (by
    rintro _ _ ⟨_, position, _, _, ⟨c, rfl, rfl⟩, rfl, rfl, rfl⟩
    apply Written.ext <;> simp [AlterOption.written, AlterOption.layout, AlterOption.looseNames,
      AlterOption.heads, Column.written, ColumnPosition.written])

def change : Codec Grammar.change (Exactly AlterOption.written) :=
  (((identifier.led ((Mark.word "CHANGE").after columnKeyword)).map AlterOption.changeColumn).seq
    column).seq columnPosition.given |>.restate (by
    rintro _ _ ⟨_, position, _, _, ⟨_, c, _, _, ⟨name, rfl, rfl⟩, rfl, rfl, rfl⟩, rfl, rfl, rfl⟩
    apply Written.ext <;> simp [AlterOption.written, AlterOption.layout, AlterOption.looseNames,
      AlterOption.heads, Column.written, ColumnPosition.written])

def rename : Codec Grammar.rename (Exactly AlterOption.written) :=
  whole (lead (.word "RENAME") (
    (named AlterOption.renameColumn (.word "COLUMN") (identifier.led (.word "TO")) (by
      intro oldName newName
      apply Written.ext <;> simp [AlterOption.written, AlterOption.layout, AlterOption.looseNames,
        AlterOption.heads])).orElse
    ((named AlterOption.renameIndex indexKeyword (identifier.led (.word "TO")) (by
      intro oldName newName
      apply Written.ext <;> simp [AlterOption.written, AlterOption.layout, AlterOption.looseNames,
        AlterOption.heads])).orElse
    (restTo AlterOption.renameTable
      (tableName.led (.given (.left (Grammar.literal "AS") (.word "TO"))))))))

def convertCharset : Codec Grammar.convertCharset (Exactly AlterOption.written) :=
  ((looseName.led (((Mark.word "CONVERT").after (.word "TO")).after charsetKeyword)).map
    AlterOption.convertCharset).seq collate.given |>.restate (by
    rintro _ _ ⟨_, label, _, _, ⟨charset, rfl, rfl⟩, rfl, rfl, rfl⟩
    apply Written.ext <;> simp [AlterOption.written, AlterOption.layout, AlterOption.looseNames,
      AlterOption.heads, loose, collation])

def alterOption : Codec Grammar.alterOption (Exactly AlterOption.written) :=
  choice (alternative add) [
    alternative drop,
    alternative alter,
    alternative modify,
    alternative change,
    alternative rename,
    alternative (mapTo AlterOption.algorithm _ (setting (.word "ALGORITHM") spelled)),
    alternative (mapTo AlterOption.lock _ (setting (.word "LOCK") spelled)),
    alternative convertCharset,
    alternative (mapTo AlterOption.tableOption _ tableOption)]

theorem coherent_alterOption : alterOption.coherent = true := by decide +kernel

end Codec
end TableDdl
