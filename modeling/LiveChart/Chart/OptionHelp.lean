/-!
# Help on options

What the options of chart configurations mean, in the order in which they are explained.
-/

namespace LiveChart

/-- The spelling of every explained option, and what it means. -/
def optionHelp : List (String × String) :=
  [
    ("chartType",
      "Chart family: line, area, bar, column, singleValue, table, geo, ohlc, candlestick."),
    ("xAxis",
      "Field bound to the x channel (time field for line/area, category for bar/column)."),
    ("yAxis",
      "Field bound to the y channel (numeric value)."),
    ("color",
      "Series/grouping field for line/area/bar/column/geo; a color name for singleValue."),
    ("groupType",
      "Bar/column grouping for a bound color field: stack or dodge (default dodge)."),
    ("lineStyle",
      "curve (smooth shape) or straight."),
    ("points",
      "Overlay point marks on a line chart."),
    ("dataLabel",
      "Attach value labels to the primary mark."),
    ("showAll",
      "Show every data label instead of only the most recent one."),
    ("legend",
      "False disables the legend; a mapping may override its position."),
    ("gridlines",
      "Y-axis grid lines (default True)."),
    ("xGridlines",
      "X-axis grid lines (default False)."),
    ("xTitle",
      "X-axis title; empty or False hides it."),
    ("yTitle",
      "Y-axis title; empty or False hides it."),
    ("yRange",
      "Explicit y domain \x7bmin, max\x7d; applied only when both bounds are set."),
    ("xFormat",
      "Date-format mask written to the time x-scale."),
    ("fractionDigits",
      "Decimal places used when formatting labels and values."),
    ("unit",
      "Unit affix \x7bposition: left|right, value\x7d."),
    ("temporal",
      "Temporal binding \x7bmode: axis|frame|key, field, range\x7d."),
    ("colors",
      "Custom palette; becomes the color-scale range of families with a color channel."),
    ("tileProvider",
      "Geo base-map tile provider, written to the geo coordinate."),
    ("maxItems",
      "Buffer capacity shortcut (default 1000)."),
    ("streaming",
      "Streaming policy override \x7bmaxItems, mode, throttle\x7d.")
  ]

end LiveChart
