import RedshiftOdbc.Connect.IniStore
import RedshiftOdbc.Connect.Rendering
import RedshiftOdbc.Convert.HexText
import RedshiftOdbc.Convert.IntervalStyles
import RedshiftOdbc.Convert.NumericText
import RedshiftOdbc.Convert.ParamBufferSent
import RedshiftOdbc.Convert.ParamText
import RedshiftOdbc.Convert.Piecewise
import RedshiftOdbc.Convert.ScratchBuffers
import RedshiftOdbc.Convert.Timestamp
import RedshiftOdbc.Convert.Unicode
import RedshiftOdbc.Convert.ZoneText
import RedshiftOdbc.Csc.MultiResultLock
import RedshiftOdbc.Csc.SpillErrors
import RedshiftOdbc.Csc.Window
import RedshiftOdbc.Descriptor.Parameters
import RedshiftOdbc.Descriptor.Tables
import RedshiftOdbc.Escape.Comments
import RedshiftOdbc.Escape.Translator
import RedshiftOdbc.Execute.BoundAddresses
import RedshiftOdbc.Execute.ParamData
import RedshiftOdbc.Execute.RefCursors
import RedshiftOdbc.Execute.RowCounts
import RedshiftOdbc.Execute.RewrittenMarkers
import RedshiftOdbc.Execute.RowsSent
import RedshiftOdbc.Fetch.GetData
import RedshiftOdbc.Fetch.RowSet
import RedshiftOdbc.Fetch.Spilled
import RedshiftOdbc.Iam.Masking
import RedshiftOdbc.Libpq.StreamingCursor
import RedshiftOdbc.Metadata.ArgumentList
import RedshiftOdbc.Metadata.FilterLiteral
import RedshiftOdbc.Metadata.LikePattern
import RedshiftOdbc.Zpq.Compressors
import RedshiftOdbc.Zpq.Malformed
import RedshiftOdbc.Zpq.Sending
import RedshiftOdbc.Zpq.Transport
import RedshiftOdbc.Metadata.FilterClause
import RedshiftOdbc.Metadata.TableTypes
import RedshiftOdbc.Metadata.ExplicitLengths
