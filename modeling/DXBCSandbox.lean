import DXBCSandbox.Dxbc.DecodersAgree
import DXBCSandbox.Dxbc.UsbdCodec
import DXBCSandbox.Dxbc.ContainerView
import DXBCSandbox.Dxbc.HashSpec
import DXBCSandbox.Dxbc.ComputeContract
import DXBCSandbox.Cfg.IfRegion
import DXBCSandbox.Common.ShaderArtifactSpec
import DXBCSandbox.Common.OraclePackAtomic
import DXBCSandbox.Common.OraclePackCanonical
import DXBCSandbox.Common.OraclePackEnvelope
import DXBCSandbox.Compiler.BrokerSpec
import DXBCSandbox.Compiler.CBufferLayout
import DXBCSandbox.Compiler.CompileAuthoritySpec
import DXBCSandbox.Compiler.ComputeDomainSpec
import DXBCSandbox.Compiler.IncludeClosureSpec
import DXBCSandbox.Compiler.ReflectionCertificateSpec
import DXBCSandbox.Compiler.SessionSpec
import DXBCSandbox.Compiler.SingleFlightSpec
import DXBCSandbox.Hlsl.GeometryFlowSpec
import DXBCSandbox.Hlsl.GlobalDeclarationsTargetSpec
import DXBCSandbox.Hlsl.LiftJournal
import DXBCSandbox.Hlsl.SemanticDetectSpec
import DXBCSandbox.Io.SubprogramMetadataSpec
import DXBCSandbox.Shaderlab.EmittedPragmas
import DXBCSandbox.Shaderlab.SelectorMacro
import DXBCSandbox.Shaderlab.StagePlanSpec
import DXBCSandbox.Shaderlab.VariantFactorExact
import DXBCSandbox.Shaderlab.VariantPlanConflict
import DXBCSandbox.Yaml.QuotedSpec
import DXBCSandbox.Yaml.Float32Spec
import DXBCSandbox.Io.ShaderBlobArchiveSpec
import DXBCSandbox.Compiler.ReflectionRecordSpec
import DXBCSandbox.Dxbc.OperandExitsSpec
import DXBCSandbox.Compiler.ToolchainLeaseSpec
import DXBCSandbox.Compiler.PreprocessCacheSpec
import DXBCSandbox.Hlsl.UseDefSpec
import DXBCSandbox.Hlsl.IncludeBuiltins
import DXBCSandbox.Hlsl.SwizzleScan
import DXBCSandbox.Compiler.FlattenPath
import DXBCSandbox.Dxbc.ResourceTable
