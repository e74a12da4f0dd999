import DiceLab.Entries

/-! The label texts that come with the engine. -/

namespace DiceLab.Catalog

/-- The texts of one locale under their keys. -/
abbrev Table := Entries Text

/-- The English texts. -/
def english : Table := [
  ("fit.perfect", "Perfect fit"),
  ("fit.close", "Close fit"),
  ("fit.contained", "Inside the target range"),
  ("fit.wider", "Wider than the target range"),
  ("fit.exceedsLow", "Goes below the target minimum"),
  ("fit.exceedsHigh", "Goes above the target maximum"),
  ("fit.noOverlap", "Outside the target range"),
  ("distribution.bell", "Bell curve"),
  ("distribution.somewhatBell", "Somewhat bell-shaped"),
  ("distribution.flat", "Flat"),
  ("stats.summary",
    "Min \x7b\x7bmin\x7d\x7d, max \x7b\x7bmax\x7d\x7d, average \x7b\x7baverage\x7d\x7d"),
  ("table.combinations", "Forged Combinations"),
  ("table.macro", "Dice"),
  ("table.min", "Min"),
  ("table.max", "Max"),
  ("table.average", "Avg"),
  ("table.fit", "Fit"),
  ("table.shape", "Shape"),
  ("simulation.title", "Distribution of \x7b\x7bmacro\x7d\x7d (\x7b\x7bruns\x7d\x7d rolls)"),
  ("simulation.theoretical", "Exact distribution of \x7b\x7bmacro\x7d\x7d"),
  ("roll.result", "Rolled \x7b\x7btotal\x7d\x7d: \x7b\x7bbreakdown\x7d\x7d"),
  ("generate.empty", "No combinations found. Select at least one die type.")]

/-- The Spanish texts. -/
def spanish : Table := [
  ("fit.perfect", "Ajuste perfecto"),
  ("fit.close", "Ajuste cercano"),
  ("fit.contained", "Dentro del rango objetivo"),
  ("fit.wider", "Más amplio que el rango objetivo"),
  ("fit.exceedsLow", "Baja del mínimo objetivo"),
  ("fit.exceedsHigh", "Supera el máximo objetivo"),
  ("fit.noOverlap", "Fuera del rango objetivo"),
  ("distribution.bell", "Curva de campana"),
  ("distribution.somewhatBell", "Algo acampanada"),
  ("distribution.flat", "Plana"),
  ("stats.summary",
    "Mín \x7b\x7bmin\x7d\x7d, máx \x7b\x7bmax\x7d\x7d, media \x7b\x7baverage\x7d\x7d"),
  ("table.combinations", "Combinaciones forjadas"),
  ("table.macro", "Dados"),
  ("table.min", "Mín"),
  ("table.max", "Máx"),
  ("table.average", "Media"),
  ("table.fit", "Ajuste"),
  ("table.shape", "Forma"),
  ("simulation.title", "Distribución de \x7b\x7bmacro\x7d\x7d (\x7b\x7bruns\x7d\x7d tiradas)"),
  ("simulation.theoretical", "Distribución exacta de \x7b\x7bmacro\x7d\x7d"),
  ("roll.result", "Resultado \x7b\x7btotal\x7d\x7d: \x7b\x7bbreakdown\x7d\x7d"),
  ("generate.empty", "No se encontraron combinaciones. Selecciona al menos un tipo de dado.")]

end DiceLab.Catalog
